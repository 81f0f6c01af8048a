import Mathlib.Tactic.IntervalCases
import LoraRan.Bridge.StatusDocuments
import LoraRan.Library.Occurrence

namespace LoraRan.Bridge.Publish
open Protocol Protocol.Sentinels Library.DecimalText Library.Json Library.Occurrence

-- A node's frame that on_status renders documents for, with the node's token.
def renders (info : NodeInfo) (hdr : Header) (payload : Bytes) : Option (Bytes × GateLinkStatusV1 × Option UInt16) :=
  if hdr.type = .status ∧ info.isBench = false ∧ hdr.schema ≠ schemaNodeHealthV1 ∧ nodeIndex info.id < nodeTable.length then
    match nodeTopicName info.id,decodeStatus hdr.schema payload with
    | some token,some (s,ahDrawn) => some (token,s,ahDrawn)
    | _,_ => none
  else none

theorem renders_token (info : NodeInfo) (hdr : Header) (payload : Bytes) (token : Bytes) (s : GateLinkStatusV1) (ahDrawn : Option UInt16)
    (is : renders info hdr payload = some (token,s,ahDrawn)) : nodeTopicName info.id = some token := by
  unfold renders at is
  split at is
  · split at is
    · cases is
      assumption
    · cases is
  · cases is

theorem onStatus_renders (p : PublicationPolicy) (info : NodeInfo) (hdr : Header) (payload : Bytes) (nowMs : UInt32) (utcAtRx : Int64) (sink : Sink)
    (token : Bytes) (s : GateLinkStatusV1) (ahDrawn : Option UInt16) (is : renders info hdr payload = some (token,s,ahDrawn)) :
    ∃ f, p.onStatus info hdr payload nowMs utcAtRx sink = (p.count f).statusDocuments (nodeIndex info.id) token s ahDrawn nowMs utcAtRx sink := by
  unfold renders at is
  split at is
  case isFalse => cases is
  case isTrue facts =>
    obtain ⟨type_,real,schema,known⟩ := facts
    split at is
    case h_2 => cases is
    case h_1 token s ahDrawn named decoded =>
      cases is
      refine ⟨fun stats => {stats with statusFrames := stats.statusFrames + 1},?_⟩
      unfold PublicationPolicy.onStatus
      simp only [type_,known,named,schema,decoded,real,ne_eq,not_true_eq_false,if_true,if_false,Bool.false_eq_true]

-- Any other frame leaves what the node holds, and offers at most a document on the health topic.
theorem onStatus_other (p : PublicationPolicy) (info : NodeInfo) (hdr : Header) (payload : Bytes) (nowMs : UInt32) (utcAtRx : Int64) (sink : Sink)
    (is : renders info hdr payload = none) :
    (p.onStatus info hdr payload nowMs utcAtRx sink).2.held = p.held ∧ (p.onStatus info hdr payload nowMs utcAtRx sink).2.levers = p.levers ∧
      ∀ e ok, (e,ok) ∈ (p.onStatus info hdr payload nowMs utcAtRx sink).1 →
        ∃ token, nodeTopicName info.id = some token ∧ topicDomainState token (domainPath .health) kMaxTopicLen = some e.topic := by
  unfold renders at is
  unfold PublicationPolicy.onStatus
  by_cases type_ : hdr.type = .status
  · simp only [type_,ne_eq,not_true_eq_false,if_false]
    by_cases known : nodeIndex info.id < nodeTable.length
    · cases named : nodeTopicName info.id with
      | none =>
          simp only [known,if_true]
          exact ⟨rfl,rfl,fun e ok inside => by cases inside⟩
      | some token =>
          simp only [known,if_true]
          by_cases health : hdr.schema = schemaNodeHealthV1
          · simp only [health,if_true]
            split
            · split
              · exact ⟨rfl,rfl,fun e ok inside => by cases inside⟩
              · have untouched := offer_untouched
                refine ⟨(untouched ..).held,(untouched ..).levers,?_⟩
                intro e ok inside
                exact ⟨token,rfl,(offer_hands _ _ _ _ _ _ _ e ok inside).2.1⟩
            · exact ⟨rfl,rfl,fun e ok inside => by cases inside⟩
          · simp only [health,if_false]
            split
            · exact ⟨rfl,rfl,fun e ok inside => by cases inside⟩
            case h_2 s ahDrawn decoded =>
              by_cases bench : info.isBench = true
              · simp only [bench,if_true]
                exact ⟨rfl,rfl,fun e ok inside => by cases inside⟩
              · rw [if_pos ⟨type_,Bool.eq_false_iff.mpr bench,health,known⟩,named,decoded] at is
                cases is
    · simp only [known,if_false]
      exact ⟨rfl,rfl,fun e ok inside => by cases inside⟩
  · simp only [type_,ne_eq,not_false_eq_true,if_true]
    exact ⟨trivial,trivial,fun e ok inside => by cases inside⟩

theorem topicDomainState_inj (token topic : Bytes) (d other : Domain) (one : topicDomainState token (domainPath d) kMaxTopicLen = some topic)
    (two : topicDomainState token (domainPath other) kMaxTopicLen = some topic) : domainPath d = domainPath other := by
  unfold topicDomainState fitted at one two
  split at one
  · cases one
  · split at one
    · split at two
      · cases two
      · split at two
        · have same := (Option.some.inj one).trans (Option.some.inj two).symm
          exact List.append_cancel_left (List.append_cancel_right same)
        · cases two
    · cases one

theorem battery_topic (d : Domain) (other : d ≠ .battery) : domainPath d ≠ domainPath .battery := by
  cases d with
  | battery => exact absurd rfl other
  | gate | detect | solar | node | health => decide +kernel

theorem hold_held (p : PublicationPolicy) (ni : Nat) (held : Held) : (p.hold ni held).held ni = held := Function.update_self _ _ _

-- A node's cells across the blocks of a frame: only the battery's moves them.
structure SameCells (held other : Held) : Prop where
  valid : other.cellsValid = held.cellsValid
  mv : other.cellMv = held.cellMv

theorem traverse_cells (held : Held) (s : GateLinkStatusV1) (utcAtRx : Int64) : SameCells held (held.traverse s utcAtRx) := by
  unfold Held.traverse
  split
  · exact ⟨rfl,rfl⟩
  · dsimp only
    split
    · split <;> exact ⟨rfl,rfl⟩
    · split <;> exact ⟨rfl,rfl⟩

theorem batteryBlock_cells (held other : Held) (levers : PublishLevers) (s : GateLinkStatusV1) (same : SameCells held other) :
    SameCells (held.batteryBlock levers s) (other.batteryBlock levers s) ∧ (other.batteryBlock levers s).cellMv = (held.batteryBlock levers s).cellMv := by
  have moved : other.deadband levers.cellMvDeadband s.cellMv = held.deadband levers.cellMvDeadband s.cellMv := by
    unfold Held.deadband
    rw [same.valid,same.mv]
  unfold Held.batteryBlock
  split
  · exact ⟨⟨rfl,moved⟩,moved⟩
  · exact ⟨⟨rfl,same.mv⟩,same.mv⟩

-- An offer is made where the slot is empty or its interval is over, and it moves no slot but its own.

theorem offer_due (p : PublicationPolicy) (ni : Nat) (d : Domain) (token : Bytes) (r : Rendered) (nowMs : UInt32) (sink : Sink) (doc topic : Bytes)
    (fits : r.doc = some doc) (named : topicDomainState token (domainPath d) kMaxTopicLen = some topic)
    (due : (p.slots ni d).valid = false ∨ p.levers.republishIntervalS.toUInt32 * 1000 ≤ nowMs - (p.slots ni d).atMs) :
    ∃ e, (e,sink e) ∈ (p.offer ni d token r nowMs sink).1 ∧ e.topic = topic := by
  have open_ : ¬(((p.slots ni d).valid && decide ((p.slots ni d).hash = documentHash doc r.hashed)) = true ∧
      nowMs - (p.slots ni d).atMs < p.levers.republishIntervalS.toUInt32 * 1000) := by
    rintro ⟨same,early⟩
    rcases due with empty | over_
    · rw [empty,Bool.false_and] at same
      cases same
    · exact absurd early (UInt32.not_lt.mpr over_)
  refine ⟨{topic := topic,payload := doc,retain := true,qos := 0},?_,rfl⟩
  unfold PublicationPolicy.offer
  rw [fits]
  dsimp only
  rw [if_neg open_,named]
  dsimp only
  split
  case isTrue takes =>
    rw [takes]
    exact List.mem_singleton_self _
  case isFalse refuses =>
    rw [Bool.eq_false_iff.mpr refuses]
    exact List.mem_singleton_self _

theorem offer_slots (p : PublicationPolicy) (ni : Nat) (d other : Domain) (token : Bytes) (r : Rendered) (nowMs : UInt32) (sink : Sink) :
    (p.offer ni d token r nowMs sink).2.slots ni other = p.slots ni other ∨
      d = other ∧ ((p.offer ni d token r nowMs sink).2.slots ni other).atMs = nowMs := by
  unfold PublicationPolicy.offer
  split
  · exact .inl rfl
  · dsimp only
    split
    · exact .inl rfl
    · split
      · exact .inl rfl
      · split
        · by_cases own : other = d
          · subst own
            refine .inr ⟨rfl,?_⟩
            dsimp only
            rw [Function.update_self,Function.update_self]
          · left
            dsimp only
            rw [Function.update_self,Function.update_of_ne own]
        · exact .inl rfl

theorem offer_elsewhere (p : PublicationPolicy) (ni : Nat) (d other : Domain) (token : Bytes) (r : Rendered) (nowMs : UInt32) (sink : Sink)
    (apart : d ≠ other) : (p.offer ni d token r nowMs sink).2.slots ni other = p.slots ni other :=
  (offer_slots p ni d other token r nowMs sink).resolve_right fun own => apart own.1

-- The battery's block comes upon the cells and the slot that the frame came upon.
structure Before (p q : PublicationPolicy) (ni : Nat) : Prop where
  levers : q.levers = p.levers
  cells : SameCells (p.held ni) (q.held ni)
  slot : q.slots ni .battery = p.slots ni .battery

-- The documents of a frame as those before the battery's, the battery's, and the node's.
theorem statusDocuments_split (p : PublicationPolicy) (ni : Nat) (token : Bytes) (s : GateLinkStatusV1) (ahDrawn : Option UInt16)
    (nowMs : UInt32) (utcAtRx : Int64) (sink : Sink) :
    ∃ q others node, Before p q ni ∧
      p.statusDocuments ni token s ahDrawn nowMs utcAtRx sink =
        (others ++ (q.batteryDocument ni token s ahDrawn (isSynthetic s) nowMs sink).1 ++
            ((q.batteryDocument ni token s ahDrawn (isSynthetic s) nowMs sink).2.offer ni .node token node nowMs sink).1,
          ((q.batteryDocument ni token s ahDrawn (isSynthetic s) nowMs sink).2.offer ni .node token node nowMs sink).2) ∧
      (∀ e ok, (e,ok) ∈ others → ∃ d, d ≠ .battery ∧ topicDomainState token (domainPath d) kMaxTopicLen = some e.topic) := by
  obtain ⟨gate,gateIs⟩ : ∃ gate, gate = p.gateDocument ni token s (!bit s.nodeFlags kNodeFireUnsensed) (isSynthetic s) nowMs sink := ⟨_,rfl⟩
  obtain ⟨detect,detectIs⟩ : ∃ detect, detect = gate.2.detectDocument ni token s (isSynthetic s) nowMs utcAtRx sink := ⟨_,rfl⟩
  obtain ⟨solar,solarIs⟩ : ∃ solar, solar = detect.2.solarDocument ni token s (isSynthetic s) nowMs sink := ⟨_,rfl⟩
  obtain ⟨node,nodeIs⟩ : ∃ node, node = nodeCalls s utcAtRx (!bit s.nodeFlags kNodeFireUnsensed) (isSynthetic s) := ⟨_,rfl⟩
  have afterGate : Before p gate.2 ni := by
    rw [gateIs]
    unfold PublicationPolicy.gateDocument
    dsimp only
    refine ⟨(offer_untouched ..).levers,?_,offer_elsewhere _ _ .gate .battery _ _ _ _ (by decide)⟩
    rw [(offer_untouched ..).held,hold_held]
    exact ⟨rfl,rfl⟩
  have afterDetect : Before p detect.2 ni := by
    have kept := traverse_cells (gate.2.held ni) s utcAtRx
    rw [detectIs]
    unfold PublicationPolicy.detectDocument
    dsimp only
    refine ⟨(offer_untouched ..).levers.trans afterGate.levers,?_,(offer_elsewhere _ _ .detect .battery _ _ _ _ (by decide)).trans afterGate.slot⟩
    rw [(offer_untouched ..).held,hold_held]
    exact ⟨kept.valid.trans afterGate.cells.valid,kept.mv.trans afterGate.cells.mv⟩
  have afterSolar : Before p solar.2 ni := by
    rw [solarIs]
    unfold PublicationPolicy.solarDocument
    refine ⟨(offer_untouched ..).levers.trans afterDetect.levers,?_,(offer_elsewhere _ _ .solar .battery _ _ _ _ (by decide)).trans afterDetect.slot⟩
    rw [(offer_untouched ..).held]
    exact afterDetect.cells
  refine ⟨solar.2,gate.1 ++ detect.1 ++ solar.1,render node.1 node.2,afterSolar,?_,?_⟩
  · rw [nodeIs,solarIs,detectIs,gateIs]
    rfl
  · intro e ok inside
    simp only [List.mem_append] at inside
    rcases inside with (inside | inside) | inside
    · rw [gateIs] at inside
      exact ⟨.gate,by decide,(offer_hands _ _ _ _ _ _ _ e ok inside).2.1⟩
    · rw [detectIs] at inside
      exact ⟨.detect,by decide,(offer_hands _ _ _ _ _ _ _ e ok inside).2.1⟩
    · rw [solarIs] at inside
      exact ⟨.solar,by decide,(offer_hands _ _ _ _ _ _ _ e ok inside).2.1⟩

-- What a rendered frame does to its node's cells, and what it hands out on the battery topic.
theorem statusDocuments_battery (p : PublicationPolicy) (ni : Nat) (token : Bytes) (s : GateLinkStatusV1) (ahDrawn : Option UInt16)
    (nowMs : UInt32) (utcAtRx : Int64) (sink : Sink) :
    (p.statusDocuments ni token s ahDrawn nowMs utcAtRx sink).2.levers = p.levers ∧
    SameCells ((p.held ni).batteryBlock p.levers s) ((p.statusDocuments ni token s ahDrawn nowMs utcAtRx sink).2.held ni) ∧
    ∀ e ok, (e,ok) ∈ (p.statusDocuments ni token s ahDrawn nowMs utcAtRx sink).1 →
      topicDomainState token (domainPath .battery) kMaxTopicLen = some e.topic →
      e.payload = jsonText (batteryCalls (bmsAvailable p.levers s) s ((p.held ni).batteryBlock p.levers s).cellMv ahDrawn (isSynthetic s)) ∧
        ok = sink e := by
  obtain ⟨q,others,node,before,whole,elsewhere⟩ := statusDocuments_split p ni token s ahDrawn nowMs utcAtRx sink
  obtain ⟨block,shown⟩ := batteryBlock_cells (p.held ni) (q.held ni) p.levers s before.cells
  rw [whole]
  refine ⟨?_,?_,?_⟩
  · exact (offer_untouched ..).levers.trans ((offer_untouched ..).levers.trans before.levers)
  · rw [(offer_untouched ..).held]
    unfold PublicationPolicy.batteryDocument
    dsimp only
    rw [(offer_untouched ..).held,hold_held,before.levers]
    exact block
  · intro e ok inside topic
    have apart := fun (d : Domain) (other : d ≠ .battery) (own : topicDomainState token (domainPath d) kMaxTopicLen = some e.topic) =>
      battery_topic d other (topicDomainState_inj token e.topic d .battery own topic)
    simp only [List.mem_append] at inside
    rcases inside with (inside | inside) | inside
    · obtain ⟨d,other,own⟩ := elsewhere e ok inside
      exact absurd own (apart d other)
    · obtain ⟨doc,_,_,_,took⟩ := offer_hands _ _ _ _ _ _ _ e ok inside
      refine ⟨?_,took⟩
      rw [before.levers,shown] at doc
      change writeJson kMaxPayloadLen _ = _ at doc
      rw [writeJson_text] at doc
      split at doc
      · exact (Option.some.inj doc).symm
      · cases doc
    · exact absurd (offer_hands _ _ _ _ _ _ _ e ok inside).2.1 (apart .node (by decide))

-- The battery's slot stays or is this frame's, and an empty or overdue one lets the document out.
theorem statusDocuments_slot (p : PublicationPolicy) (ni : Nat) (token : Bytes) (s : GateLinkStatusV1) (ahDrawn : Option UInt16)
    (nowMs : UInt32) (utcAtRx : Int64) (sink : Sink) :
    (p.statusDocuments ni token s ahDrawn nowMs utcAtRx sink).2.slots ni .battery = p.slots ni .battery ∨
      ((p.statusDocuments ni token s ahDrawn nowMs utcAtRx sink).2.slots ni .battery).atMs = nowMs := by
  obtain ⟨q,others,node,before,whole,_⟩ := statusDocuments_split p ni token s ahDrawn nowMs utcAtRx sink
  rw [whole,offer_elsewhere _ _ .node .battery _ _ _ _ (by decide)]
  rcases offer_slots (q.hold ni ((q.held ni).batteryBlock q.levers s)) ni .battery .battery token _ nowMs sink with kept | ⟨_,now⟩
  · exact .inl (kept.trans before.slot)
  · exact .inr now

theorem statusDocuments_due (p : PublicationPolicy) (ni : Nat) (token : Bytes) (s : GateLinkStatusV1) (ahDrawn : Option UInt16)
    (nowMs : UInt32) (utcAtRx : Int64) (sink : Sink) (topic : Bytes) (named : topicDomainState token (domainPath .battery) kMaxTopicLen = some topic)
    (fits : ((batteryCalls (bmsAvailable p.levers s) s ((p.held ni).batteryBlock p.levers s).cellMv ahDrawn (isSynthetic s)).map callMost).sum + 2 <
      kMaxPayloadLen)
    (due : (p.slots ni .battery).valid = false ∨ p.levers.republishIntervalS.toUInt32 * 1000 ≤ nowMs - (p.slots ni .battery).atMs) :
    ∃ e, (e,sink e) ∈ (p.statusDocuments ni token s ahDrawn nowMs utcAtRx sink).1 ∧ e.topic = topic := by
  obtain ⟨q,others,node,before,whole,_⟩ := statusDocuments_split p ni token s ahDrawn nowMs utcAtRx sink
  obtain ⟨_,shown⟩ := batteryBlock_cells (p.held ni) (q.held ni) p.levers s before.cells
  obtain ⟨calls,callsIs⟩ : ∃ calls, calls =
    batteryCalls (bmsAvailable q.levers s) s ((q.held ni).batteryBlock q.levers s).cellMv ahDrawn (isSynthetic s) := ⟨_,rfl⟩
  have doc : (render calls []).doc = some (jsonText calls) := by
    have written := writeJson_text kMaxPayloadLen calls
    rw [if_pos (by rw [callsIs,before.levers,shown]; exact Nat.lt_of_le_of_lt (jsonText_length _) fits)] at written
    exact written
  rw [← before.levers,← before.slot] at due
  obtain ⟨e,handed,is⟩ := offer_due (q.hold ni ((q.held ni).batteryBlock q.levers s)) ni .battery token _ nowMs sink _ topic doc named due
  rw [callsIs] at handed
  refine ⟨e,?_,is⟩
  rw [whole]
  exact List.mem_append_left _ (List.mem_append_right _ handed)

-- A frame of the node with what was around it: the clocks at its reception, and what the sink does with each of its documents.
structure Frame where
  hdr : Header
  payload : Bytes
  nowMs : UInt32
  utcAtRx : Int64
  sink : Sink

section
variable (levers : PublishLevers) (info : NodeInfo)

def PublicationPolicy.take (p : PublicationPolicy) (f : Frame) : Offers × PublicationPolicy :=
  p.onStatus info f.hdr f.payload f.nowMs f.utcAtRx f.sink

def policyAfter (frames : List Frame) : PublicationPolicy := frames.foldl (fun p f => (p.take info f).2) {levers := levers}

def heldAfter (frames : List Frame) : Held := (policyAfter levers info frames).held (nodeIndex info.id)

-- The battery documents a frame hands to the sink, each with the sink's answer.
def batteryOffers (pre : List Frame) (f : Frame) : Offers :=
  ((policyAfter levers info pre).take info f).1.filter fun o =>
    match nodeTopicName info.id with
    | some token => decide (topicDomainState token (domainPath .battery) kMaxTopicLen = some o.1.topic)
    | none => false

def Accepted (pre : List Frame) (f : Frame) (payload : Bytes) : Prop := ∃ e, (e,true) ∈ batteryOffers levers info pre f ∧ e.payload = payload

-- A block of the pack's that is no reading.
def Unavailable (f : Frame) : Prop := ∃ token s ahDrawn, renders info f.hdr f.payload = some (token,s,ahDrawn) ∧ bmsAvailable levers s = false

end

-- The millivolts a document carries for a cell, and those of a frame.
def Carries (payload : Bytes) (c : Nat) (v : UInt16) : Prop := documentField payload (cellKey c (text "_mv")) = some (.num (digits v.toNat))

def cellAt (mv : Cells UInt16) (c : Nat) : UInt16 := (Cells.toList mv).getD c 0

def apart (v other : UInt16) : Nat := ((v.toNat : Int) - other.toNat).natAbs

theorem digits_inj (n m : Nat) (same : digits n = digits m) : n = m := by
  rw [← digitsValue_digits n,same,digitsValue_digits]

theorem Carries.unique {payload : Bytes} {c : Nat} {v other : UInt16} (one : Carries payload c v) (two : Carries payload c other) : v = other := by
  have same := Option.some.inj (one.symm.trans two)
  rw [Doc.num.injEq] at same
  exact UInt16.toNat_inj.mp (digits_inj _ _ same)

theorem cellMv_call (reported : Nat) (mv : Cells UInt16) (c : Nat) (inside : c < 4) :
    (if c < reported then JsonCall.u32 (cellKey c (text "_mv")) (cellAt mv c).toUInt32 else .null (cellKey c (text "_mv"))) ∈ cellMvCalls reported mv := by
  unfold cellMvCalls
  refine List.mem_iff_getElem?.mpr ⟨c,?_⟩
  rw [List.getElem?_mapIdx]
  have some_ : (Cells.toList mv)[c]? = some (cellAt mv c) := by
    unfold cellAt
    rw [List.getD_eq_getElem?_getD]
    interval_cases c
    all_goals rfl
  rw [some_]
  rfl

-- The document of an available block carries each reported cell, and null for the others.
theorem battery_carries (s : GateLinkStatusV1) (mv : Cells UInt16) (ahDrawn : Option UInt16) (synthetic : Bool) (c : Nat) (inside : c < 4) :
    if c < s.cellCount.toNat then Carries (jsonText (batteryCalls true s mv ahDrawn synthetic)) c (cellAt mv c)
    else documentField (jsonText (batteryCalls true s mv ahDrawn synthetic)) (cellKey c (text "_mv")) = some .null := by
  have doc := battery_document true s mv ahDrawn synthetic
  have call := cellMv_call (min s.cellCount.toNat 4) mv c inside
  have within : ∀ call ∈ cellMvCalls (min s.cellCount.toNat 4) mv, call ∈ batteryCalls true s mv ahDrawn synthetic := by
    intro call member
    unfold batteryCalls packCalls
    simp only [if_true,List.mem_append,List.mem_cons]
    exact .inl (.inr (.inl (.inl (.inl (.inr member)))))
  split
  case isTrue reported =>
    rw [if_pos (by omega)] at call
    have field := doc.field _ (within _ call) _ rfl
    exact field
  case isFalse unreported =>
    rw [if_neg (by omega)] at call
    exact doc.field _ (within _ call) _ rfl

theorem battery_unavailable (s : GateLinkStatusV1) (mv : Cells UInt16) (ahDrawn : Option UInt16) (synthetic : Bool) (c : Nat) (inside : c < 4) :
    documentField (jsonText (batteryCalls false s mv ahDrawn synthetic)) (cellKey c (text "_mv")) = some .null := by
  have doc := battery_document false s mv ahDrawn synthetic
  have key : ∀ c < 4, cellKey c (text "_mv") ∈ batteryKeys := by decide +kernel
  have within : JsonCall.null (cellKey c (text "_mv")) ∈ batteryCalls false s mv ahDrawn synthetic := by
    unfold batteryCalls
    simp only [Bool.false_eq_true,if_false,List.mem_append,List.mem_cons]
    exact .inl (.inr (List.mem_map_of_mem (key c inside)))
  exact doc.field _ within _ rfl

theorem battery_cells (available : Bool) (s : GateLinkStatusV1) (mv : Cells UInt16) (ahDrawn : Option UInt16) (synthetic : Bool) (c : Nat)
    (inside : c < 4) :
    if (available && decide (c < s.cellCount.toNat)) = true then Carries (jsonText (batteryCalls available s mv ahDrawn synthetic)) c (cellAt mv c)
    else documentField (jsonText (batteryCalls available s mv ahDrawn synthetic)) (cellKey c (text "_mv")) = some .null := by
  cases available with
  | false => exact battery_unavailable s mv ahDrawn synthetic c inside
  | true =>
      have carried := battery_carries s mv ahDrawn synthetic c inside
      simpa only [Bool.true_and,decide_eq_true_eq] using carried

theorem deadbanded_near (valid : Bool) (deadband : UInt8) (v held : UInt16) (some_ : 1 ≤ deadband.toNat) :
    apart (deadbanded valid deadband v held) v < deadband.toNat := by
  unfold deadbanded apart
  dsimp only
  split
  · omega
  · omega

-- A valid held value stays, or becomes the frame's from a deadband away.
theorem deadbanded_moves (deadband : UInt8) (v held : UInt16) :
    deadbanded true deadband v held = held ∨ deadbanded true deadband v held = v ∧ deadband.toNat ≤ apart v held := by
  unfold deadbanded apart
  dsimp only
  split
  · right
    refine ⟨rfl,?_⟩
    simp only [Bool.not_true,Bool.false_eq_true,false_or] at *
    omega
  · exact .inl rfl

theorem deadband_at (held : Held) (deadband : UInt8) (mv : Cells UInt16) (c : Nat) (inside : c < 4) :
    cellAt (held.deadband deadband mv) c = deadbanded held.cellsValid deadband (cellAt mv c) (cellAt held.cellMv c) := by
  interval_cases c
  all_goals rfl

section
variable (levers : PublishLevers) (info : NodeInfo)

-- Whether a frame's battery document shows a cell.
def reports (f : Frame) (c : Nat) : Bool :=
  match renders info f.hdr f.payload with
  | some (_,s,_) => bmsAvailable levers s && decide (c < s.cellCount.toNat)
  | none => false

theorem policyAfter_snoc (pre : List Frame) (f : Frame) : policyAfter levers info (pre ++ [f]) = ((policyAfter levers info pre).take info f).2 := by
  rw [policyAfter,List.foldl_append]
  rfl

theorem levers_kept (frames : List Frame) : (policyAfter levers info frames).levers = levers := by
  induction frames using List.reverseRecOn with
  | nil => rfl
  | append_singleton pre f ih =>
      rw [policyAfter_snoc,PublicationPolicy.take]
      cases is : renders info f.hdr f.payload with
      | none => exact (onStatus_other _ info f.hdr f.payload f.nowMs f.utcAtRx f.sink is).2.1.trans ih
      | some r =>
          obtain ⟨counted,same⟩ := onStatus_renders (policyAfter levers info pre) info f.hdr f.payload f.nowMs f.utcAtRx f.sink r.1 r.2.1 r.2.2 is
          rw [same,(statusDocuments_battery ..).1]
          exact ih

-- What one frame does to the node's cells, and what its battery document is.
theorem frame_cells (pre : List Frame) (f : Frame) :
    match renders info f.hdr f.payload with
    | none => heldAfter levers info (pre ++ [f]) = heldAfter levers info pre ∧ batteryOffers levers info pre f = []
    | some (_,s,ahDrawn) =>
        SameCells ((heldAfter levers info pre).batteryBlock levers s) (heldAfter levers info (pre ++ [f])) ∧
        ∀ e ok, (e,ok) ∈ batteryOffers levers info pre f → ok = f.sink e ∧
          e.payload = jsonText (batteryCalls (bmsAvailable levers s) s (heldAfter levers info (pre ++ [f])).cellMv ahDrawn (isSynthetic s)) := by
  cases is : renders info f.hdr f.payload with
  | none =>
      obtain ⟨held,_,offers⟩ := onStatus_other (policyAfter levers info pre) info f.hdr f.payload f.nowMs f.utcAtRx f.sink is
      constructor
      · unfold heldAfter
        rw [policyAfter_snoc,PublicationPolicy.take,held]
      · unfold batteryOffers PublicationPolicy.take
        rw [List.filter_eq_nil_iff]
        rintro ⟨e,ok⟩ inside
        obtain ⟨token,named,topic⟩ := offers e ok inside
        rw [named]
        simp only [decide_eq_true_eq]
        exact fun own => battery_topic .health (by decide) (topicDomainState_inj token e.topic .health .battery topic own)
  | some r =>
      obtain ⟨token,s,ahDrawn⟩ := r
      obtain ⟨counted,same⟩ := onStatus_renders (policyAfter levers info pre) info f.hdr f.payload f.nowMs f.utcAtRx f.sink token s ahDrawn is
      obtain ⟨_,cells,docs⟩ := statusDocuments_battery ((policyAfter levers info pre).count counted) (nodeIndex info.id) token s ahDrawn
        f.nowMs f.utcAtRx f.sink
      have own : ((policyAfter levers info pre).count counted).levers = levers := levers_kept levers info pre
      rw [own] at cells docs
      have moved : SameCells ((heldAfter levers info pre).batteryBlock levers s) (heldAfter levers info (pre ++ [f])) := by
        unfold heldAfter
        rw [policyAfter_snoc,PublicationPolicy.take,same]
        exact cells
      refine ⟨moved,?_⟩
      intro e ok inside
      unfold batteryOffers PublicationPolicy.take at inside
      rw [same,List.mem_filter] at inside
      have named := renders_token info f.hdr f.payload token s ahDrawn is
      rw [named] at inside
      obtain ⟨payload,took⟩ := docs e ok inside.1 (of_decide_eq_true inside.2)
      refine ⟨took,?_⟩
      rw [payload,moved.mv]
      rfl

-- A battery document carries what the node then holds, for each cell the frame reports.
theorem offered_carries (pre : List Frame) (f : Frame) (e : Emission) (ok : Bool) (inside : (e,ok) ∈ batteryOffers levers info pre f)
    (c : Nat) (cell : c < 4) :
    if reports levers info f c then Carries e.payload c (cellAt (heldAfter levers info (pre ++ [f])).cellMv c)
    else documentField e.payload (cellKey c (text "_mv")) = some .null := by
  have does := frame_cells levers info pre f
  unfold reports
  cases is : renders info f.hdr f.payload with
  | none =>
      rw [is] at does
      rw [does.2] at inside
      cases inside
  | some r =>
      obtain ⟨token,s,ahDrawn⟩ := r
      rw [is] at does
      obtain ⟨_,payload⟩ := does.2 e ok inside
      rw [payload]
      dsimp only
      exact battery_cells (bmsAvailable levers s) s _ ahDrawn (isSynthetic s) c cell

theorem cells_after (pre : List Frame) (f : Frame) (token : Bytes) (s : GateLinkStatusV1) (ahDrawn : Option UInt16)
    (is : renders info f.hdr f.payload = some (token,s,ahDrawn)) (fresh : bmsAvailable levers s = true) :
    (heldAfter levers info (pre ++ [f])).cellsValid = true ∧
      (heldAfter levers info (pre ++ [f])).cellMv = (heldAfter levers info pre).deadband levers.cellMvDeadband s.cellMv := by
  have does := frame_cells levers info pre f
  rw [is] at does
  rw [does.1.valid,does.1.mv,Held.batteryBlock,if_pos fresh]
  exact ⟨rfl,rfl⟩

theorem battery_slot (pre : List Frame) (f : Frame) (is : (renders info f.hdr f.payload).isSome) :
    (policyAfter levers info (pre ++ [f])).slots (nodeIndex info.id) .battery = (policyAfter levers info pre).slots (nodeIndex info.id) .battery ∨
      ((policyAfter levers info (pre ++ [f])).slots (nodeIndex info.id) .battery).atMs = f.nowMs := by
  obtain ⟨r,is⟩ := Option.isSome_iff_exists.mp is
  obtain ⟨counted,same⟩ := onStatus_renders (policyAfter levers info pre) info f.hdr f.payload f.nowMs f.utcAtRx f.sink r.1 r.2.1 r.2.2 is
  rw [policyAfter_snoc,PublicationPolicy.take,same]
  exact statusDocuments_slot ((policyAfter levers info pre).count counted) (nodeIndex info.id) r.1 r.2.1 r.2.2 f.nowMs f.utcAtRx f.sink

-- A battery slot stays empty or overdue behind a frame an interval ago.
theorem battery_overdue (pre : List Frame) (f : Frame) (nowMs : UInt32) (is : (renders info f.hdr f.payload).isSome)
    (before : ((policyAfter levers info pre).slots (nodeIndex info.id) .battery).valid = false ∨
      levers.republishIntervalS.toUInt32 * 1000 ≤ nowMs - ((policyAfter levers info pre).slots (nodeIndex info.id) .battery).atMs)
    (late : levers.republishIntervalS.toUInt32 * 1000 ≤ nowMs - f.nowMs) :
    ((policyAfter levers info (pre ++ [f])).slots (nodeIndex info.id) .battery).valid = false ∨
      levers.republishIntervalS.toUInt32 * 1000 ≤ nowMs - ((policyAfter levers info (pre ++ [f])).slots (nodeIndex info.id) .battery).atMs := by
  rcases battery_slot levers info pre f is with kept | now
  · rw [kept]
    exact before
  · rw [now]
    exact .inr late

-- A battery document that fits and is the first, or overdue, is handed to the sink.
theorem battery_due (pre : List Frame) (f : Frame) (token : Bytes) (s : GateLinkStatusV1) (ahDrawn : Option UInt16)
    (is : renders info f.hdr f.payload = some (token,s,ahDrawn)) (named : (topicDomainState token (domainPath .battery) kMaxTopicLen).isSome)
    (fits : ((batteryCalls (bmsAvailable levers s) s ((heldAfter levers info pre).batteryBlock levers s).cellMv ahDrawn (isSynthetic s)).map
      callMost).sum + 2 < kMaxPayloadLen)
    (due : ((policyAfter levers info pre).slots (nodeIndex info.id) .battery).valid = false ∨
      levers.republishIntervalS.toUInt32 * 1000 ≤ f.nowMs - ((policyAfter levers info pre).slots (nodeIndex info.id) .battery).atMs) :
    ∃ e, (e,f.sink e) ∈ batteryOffers levers info pre f := by
  obtain ⟨topic,named⟩ := Option.isSome_iff_exists.mp named
  obtain ⟨counted,same⟩ := onStatus_renders (policyAfter levers info pre) info f.hdr f.payload f.nowMs f.utcAtRx f.sink token s ahDrawn is
  have kept := levers_kept levers info pre
  obtain ⟨e,handed,own⟩ := statusDocuments_due ((policyAfter levers info pre).count counted) (nodeIndex info.id) token s ahDrawn f.nowMs f.utcAtRx
    f.sink topic named (by rw [PublicationPolicy.count,kept]; exact fits) (by rw [PublicationPolicy.count,kept]; exact due)
  refine ⟨e,?_⟩
  unfold batteryOffers PublicationPolicy.take
  rw [same,List.mem_filter]
  refine ⟨handed,?_⟩
  have token_ : nodeTopicName info.id = some token := renders_token info f.hdr f.payload token s ahDrawn is
  rw [token_,own]
  exact decide_eq_true named

theorem taken_carries (pre : List Frame) (f : Frame) (token : Bytes) (s : GateLinkStatusV1) (ahDrawn : Option UInt16)
    (is : renders info f.hdr f.payload = some (token,s,ahDrawn)) (fresh : bmsAvailable levers s = true)
    (named : (topicDomainState token (domainPath .battery) kMaxTopicLen).isSome)
    (fits : ((batteryCalls true s ((heldAfter levers info pre).batteryBlock levers s).cellMv ahDrawn (isSynthetic s)).map callMost).sum + 2 <
      kMaxPayloadLen)
    (due : ((policyAfter levers info pre).slots (nodeIndex info.id) .battery).valid = false ∨
      levers.republishIntervalS.toUInt32 * 1000 ≤ f.nowMs - ((policyAfter levers info pre).slots (nodeIndex info.id) .battery).atMs)
    (takes : ∀ e, f.sink e = true) (c : Nat) (cell : c < 4) (shown : c < s.cellCount.toNat) (v : UInt16)
    (holds : cellAt (heldAfter levers info (pre ++ [f])).cellMv c = v) : ∃ payload, Accepted levers info pre f payload ∧ Carries payload c v := by
  obtain ⟨e,handed⟩ := battery_due levers info pre f token s ahDrawn is named (by rw [fresh]; exact fits) due
  have carried := offered_carries levers info pre f e _ handed c cell
  have reported : reports levers info f c = true := by
    unfold reports
    rw [is]
    exact Bool.and_eq_true_iff.mpr ⟨fresh,decide_eq_true shown⟩
  rw [if_pos reported,holds] at carried
  rw [takes e] at handed
  exact ⟨e.payload,⟨e,handed,rfl⟩,carried⟩

theorem refused (pre : List Frame) (f : Frame) (refuses : ∀ e, f.sink e = false) : ¬∃ payload, Accepted levers info pre f payload := by
  rintro ⟨_,e,handed,_⟩
  have does := frame_cells levers info pre f
  cases is : renders info f.hdr f.payload with
  | none =>
      rw [is] at does
      rw [does.2] at handed
      cases handed
  | some r =>
      rw [is] at does
      have took := (does.2 e true handed).1
      rw [refuses e] at took
      cases took

-- The last battery document the sink took carried this for the cell, and no unavailable block came after it.
def LastPublished (pre : List Frame) (c : Nat) (q : UInt16) : Prop :=
  ∃ before f mid payload, pre = before ++ f :: mid ∧ Accepted levers info before f payload ∧ Carries payload c q ∧
    (∀ m g rest, mid = m ++ g :: rest → ¬(∃ later, Accepted levers info (before ++ f :: m) g later) ∧ ¬Unavailable levers info g)

theorem lastPublished_snoc (pre : List Frame) (f : Frame) (c : Nat) (q : UInt16) (last : LastPublished levers info (pre ++ [f]) c q) :
    (∃ payload, Accepted levers info pre f payload ∧ Carries payload c q) ∨ ¬Unavailable levers info f ∧ LastPublished levers info pre c q := by
  obtain ⟨before,g,mid,payload,whole,taken,carries,since⟩ := last
  rcases List.eq_nil_or_concat mid with rfl | ⟨init,last,rfl⟩
  · obtain ⟨rfl,one⟩ := List.append_inj' whole rfl
    rw [List.singleton_inj.mp one]
    exact .inl ⟨payload,taken,carries⟩
  · rw [List.concat_eq_append,← List.cons_append,← List.append_assoc] at whole
    obtain ⟨rfl,one⟩ := List.append_inj' whole rfl
    rw [List.singleton_inj.mp one]
    refine .inr ⟨(since init last [] (by rw [List.concat_eq_append])).2,before,g,init,payload,rfl,taken,carries,?_⟩
    intro m h rest split_
    exact since m h (rest ++ [last]) (by rw [List.concat_eq_append,split_]; simp)

-- A frame that moves a held cell moves it from what was last published.
def MovesPublished (pre : List Frame) (f : Frame) : Prop :=
  ∀ c < 4, ∀ q token s ahDrawn, renders info f.hdr f.payload = some (token,s,ahDrawn) → bmsAvailable levers s = true →
    LastPublished levers info pre c q → levers.cellMvDeadband.toNat ≤ apart (cellAt s.cellMv c) (cellAt (heldAfter levers info pre).cellMv c) →
    cellAt (heldAfter levers info pre).cellMv c = q

-- Every battery document shows each reported cell within the deadband of the frame, and of two documents the sink took one after
-- the other, with no unavailable block between them, the later shows each cell as the earlier did or a deadband away.
structure RelativeToPublished (frames : List Frame) : Prop where
  near : Always (fun pre f => ∀ e ok, (e,ok) ∈ batteryOffers levers info pre f → ∃ token s ahDrawn,
    renders info f.hdr f.payload = some (token,s,ahDrawn) ∧ ∀ c < 4,
      if bmsAvailable levers s = true ∧ c < s.cellCount.toNat then
        ∃ v, Carries e.payload c v ∧ apart v (cellAt s.cellMv c) < levers.cellMvDeadband.toNat
      else documentField e.payload (cellKey c (text "_mv")) = some .null) frames
  steady : Always (fun pre f => ∀ payload c q v, c < 4 → Accepted levers info pre f payload → LastPublished levers info pre c q →
    Carries payload c v → v = q ∨ levers.cellMvDeadband.toNat ≤ apart v q) frames

theorem near_frame (pre : List Frame) (f : Frame) (some_ : 1 ≤ levers.cellMvDeadband.toNat) (e : Emission) (ok : Bool)
    (inside : (e,ok) ∈ batteryOffers levers info pre f) : ∃ token s ahDrawn,
    renders info f.hdr f.payload = some (token,s,ahDrawn) ∧ ∀ c < 4,
      if bmsAvailable levers s = true ∧ c < s.cellCount.toNat then
        ∃ v, Carries e.payload c v ∧ apart v (cellAt s.cellMv c) < levers.cellMvDeadband.toNat
      else documentField e.payload (cellKey c (text "_mv")) = some .null := by
  have does := frame_cells levers info pre f
  have carried := fun c cell => offered_carries levers info pre f e ok inside c cell
  unfold reports at carried
  cases is : renders info f.hdr f.payload with
  | none =>
      rw [is] at does
      rw [does.2] at inside
      cases inside
  | some r =>
      obtain ⟨token,s,ahDrawn⟩ := r
      rw [is] at does carried
      refine ⟨token,s,ahDrawn,rfl,?_⟩
      intro c cell
      have here := carried c cell
      simp only [Bool.and_eq_true,decide_eq_true_eq] at here
      split
      case isTrue shown =>
        rw [if_pos shown] at here
        refine ⟨_,here,?_⟩
        rw [(cells_after levers info pre f token s ahDrawn is shown.1).2,deadband_at _ _ _ c cell]
        exact deadbanded_near _ _ _ _ some_
      case isFalse hidden =>
        rw [if_neg hidden] at here
        exact here

-- A cell that is what was published, or a deadband away from it.
def Within (levers : PublishLevers) (held : Held) (c : Nat) (q : UInt16) : Prop :=
  held.cellsValid = true ∧ (cellAt held.cellMv c = q ∨ levers.cellMvDeadband.toNat ≤ apart (cellAt held.cellMv c) q)

theorem within_step (pre : List Frame) (f : Frame) (c : Nat) (cell : c < 4) (q : UInt16) (last : LastPublished levers info pre c q)
    (within : Within levers (heldAfter levers info pre) c q) (available : ¬Unavailable levers info f) (moves : MovesPublished levers info pre f) :
    Within levers (heldAfter levers info (pre ++ [f])) c q := by
  have does := frame_cells levers info pre f
  cases is : renders info f.hdr f.payload with
  | none =>
      rw [is] at does
      rw [does.1]
      exact within
  | some r =>
      obtain ⟨token,s,ahDrawn⟩ := r
      rw [is] at does
      have fresh : bmsAvailable levers s = true := by
        by_contra stale
        exact available ⟨token,s,ahDrawn,is,Bool.eq_false_iff.mpr stale⟩
      obtain ⟨valid,near⟩ := within
      obtain ⟨now,moved⟩ := cells_after levers info pre f token s ahDrawn is fresh
      refine ⟨now,?_⟩
      rw [moved,deadband_at _ _ _ c cell,valid]
      rcases deadbanded_moves levers.cellMvDeadband (cellAt s.cellMv c) (cellAt (heldAfter levers info pre).cellMv c) with same | ⟨moved,far⟩
      · rw [same]
        exact near
      · rw [moved]
        have from_ := moves c cell q token s ahDrawn is fresh last far
        rw [from_] at far
        exact .inr far

theorem accepted_holds (pre : List Frame) (f : Frame) (payload : Bytes) (c : Nat) (cell : c < 4) (v : UInt16)
    (taken : Accepted levers info pre f payload) (carries : Carries payload c v) :
    cellAt (heldAfter levers info (pre ++ [f])).cellMv c = v ∧ (heldAfter levers info (pre ++ [f])).cellsValid = true ∧ ¬Unavailable levers info f := by
  obtain ⟨e,inside,rfl⟩ := taken
  have here := offered_carries levers info pre f e true inside c cell
  split at here
  case isFalse =>
    have impossible := Option.some.inj (here.symm.trans carries)
    cases impossible
  case isTrue shown =>
    refine ⟨here.unique carries,?_⟩
    unfold reports at shown
    cases is : renders info f.hdr f.payload with
    | none =>
        rw [is] at shown
        cases shown
    | some r =>
        obtain ⟨token,s,ahDrawn⟩ := r
        rw [is] at shown
        obtain ⟨fresh,_⟩ := Bool.and_eq_true_iff.mp shown
        constructor
        · exact (cells_after levers info pre f token s ahDrawn is fresh).1
        · rintro ⟨_,other,_,same,stale⟩
          rw [is] at same
          cases same
          rw [fresh] at stale
          cases stale

theorem within_run (frames : List Frame) (moves : Always (MovesPublished levers info) frames) (c : Nat) (cell : c < 4) (q : UInt16)
    (last : LastPublished levers info frames c q) : Within levers (heldAfter levers info frames) c q := by
  induction frames using List.reverseRecOn with
  | nil =>
      obtain ⟨before,f,mid,_,whole,_⟩ := last
      exact absurd whole.symm (List.append_ne_nil_of_right_ne_nil before (List.cons_ne_nil f mid))
  | append_singleton pre f ih =>
      obtain ⟨earlier,now⟩ := (always_snoc pre f).mp moves
      rcases lastPublished_snoc levers info pre f c q last with ⟨payload,taken,carries⟩ | ⟨available,before⟩
      · obtain ⟨held,valid,_⟩ := accepted_holds levers info pre f payload c cell q taken carries
        exact ⟨valid,.inl held⟩
      · exact within_step levers info pre f c cell q before (ih earlier before) available now

theorem cells_relative_to_published (frames : List Frame) (some_ : 1 ≤ levers.cellMvDeadband.toNat)
    (moves : Always (MovesPublished levers info) frames) : RelativeToPublished levers info frames := by
  constructor
  · rintro ⟨pre,f,post,rfl,fails⟩
    exact fails (near_frame levers info pre f some_)
  · rintro ⟨pre,f,post,rfl,fails⟩
    refine fails ?_
    intro payload c q v cell taken last carries
    have before : Always (MovesPublished levers info) pre := fun occurs => moves (occurs.later pre (f :: post))
    obtain ⟨held,_,available⟩ := accepted_holds levers info pre f payload c cell v taken carries
    have within := within_step levers info pre f c cell q last (within_run levers info pre before c cell q last) available
      (moves.here pre post f)
    rw [← held]
    exact within.2

end

-- The pack's four cells at one voltage, a deadband of 5 and a repeat after 900 s.
def cellsStatus (mv : UInt16) : GateLinkStatusV1 := {bmsFlags := kBmsValid,bmsAgeS := 10,cellCount := 4,cellMv := ⟨mv,mv,mv,mv⟩}

def cellsFrame (mv : UInt16) (nowMs : UInt32) (taken : Bool) : Frame :=
  {hdr := {type := .status,src := 0x01,schema := schemaGateLinkStatusV1}
   payload := (cellsStatus mv).chunks.flatten
   nowMs := nowMs,utcAtRx := 0,sink := fun _ => taken}

def cellsInfo : NodeInfo := ⟨0x01,false⟩

theorem battery_named : (topicDomainState (text "gatelink") (domainPath .battery) kMaxTopicLen).isSome := by decide +kernel

-- The first frame is published as it is.
theorem cells_begin : renders cellsInfo (cellsFrame 100 0 true).hdr (cellsFrame 100 0 true).payload = some (text "gatelink",cellsStatus 100,none) ∧
    (heldAfter {} cellsInfo [cellsFrame 100 0 true]).cellsValid = true ∧
    (heldAfter {} cellsInfo [cellsFrame 100 0 true]).cellMv = ⟨100,100,100,100⟩ ∧
    ∃ payload, Accepted {} cellsInfo [] (cellsFrame 100 0 true) payload ∧ Carries payload 0 100 := by
  have first : renders cellsInfo (cellsFrame 100 0 true).hdr (cellsFrame 100 0 true).payload = some (text "gatelink",cellsStatus 100,none) := by rfl
  obtain ⟨valid,held⟩ := cells_after {} cellsInfo [] (cellsFrame 100 0 true) _ _ _ first (by decide)
  refine ⟨first,valid,held,?_⟩
  exact taken_carries {} cellsInfo [] (cellsFrame 100 0 true) _ _ _ first (by decide) battery_named (by decide +kernel) (.inl rfl) (fun _ => rfl)
    0 (by decide) (by decide) 100 (congrArg (cellAt · 0) held)

-- The second moves the cells by more than the deadband, whether the sink takes it or not.
theorem cells_rise (nowMs : UInt32) (taken : Bool) :
    renders cellsInfo (cellsFrame 107 nowMs taken).hdr (cellsFrame 107 nowMs taken).payload = some (text "gatelink",cellsStatus 107,none) ∧
      (heldAfter {} cellsInfo [cellsFrame 100 0 true,cellsFrame 107 nowMs taken]).cellsValid = true ∧
      (heldAfter {} cellsInfo [cellsFrame 100 0 true,cellsFrame 107 nowMs taken]).cellMv = ⟨107,107,107,107⟩ := by
  have second : renders cellsInfo (cellsFrame 107 nowMs taken).hdr (cellsFrame 107 nowMs taken).payload =
      some (text "gatelink",cellsStatus 107,none) := by rfl
  obtain ⟨_,valid,held,_⟩ := cells_begin
  obtain ⟨valid2,held2⟩ := cells_after {} cellsInfo [cellsFrame 100 0 true] (cellsFrame 107 nowMs taken) _ _ _ second (by decide)
  refine ⟨second,valid2,held2.trans ?_⟩
  rw [Held.deadband,valid,held]
  rfl

-- 100 and 107 are published, then 109, which is held at 107.
def cellsRising : List Frame := [cellsFrame 100 0 true,cellsFrame 107 900000 true,cellsFrame 109 1800000 true]

theorem rising_moves_published : Always (MovesPublished {} cellsInfo) cellsRising := by
  obtain ⟨_,_,held1,_⟩ := cells_begin
  obtain ⟨_,_,held2⟩ := cells_rise 900000 true
  have third : renders cellsInfo (cellsFrame 109 1800000 true).hdr (cellsFrame 109 1800000 true).payload =
      some (text "gatelink",cellsStatus 109,none) := by rfl
  have none_before : ∀ c q, ¬LastPublished {} cellsInfo [] c q := by
    rintro c q ⟨before,f,mid,_,whole,_⟩
    exact absurd whole.symm (List.append_ne_nil_of_right_ne_nil before (List.cons_ne_nil f mid))
  refine (always_snoc [cellsFrame 100 0 true,cellsFrame 107 900000 true] _).mpr
    ⟨(always_snoc [cellsFrame 100 0 true] _).mpr ⟨(always_snoc ([] : List Frame) _).mpr ⟨always_nil,?_⟩,?_⟩,?_⟩
  · intro c _ q _ _ _ _ _ last
    exact absurd last (none_before c q)
  · intro c cell q _ _ _ _ _ last _
    rcases lastPublished_snoc {} cellsInfo [] (cellsFrame 100 0 true) c q last with ⟨payload,taken,carries⟩ | ⟨_,before⟩
    · exact (accepted_holds {} cellsInfo [] (cellsFrame 100 0 true) payload c cell q taken carries).1
    · exact absurd before (none_before c q)
  · intro c cell q token s ahDrawn is _ _ far
    cases third.symm.trans is
    rw [held2] at far
    interval_cases c
    all_goals exact absurd far (by decide)

theorem rising_relative : RelativeToPublished {} cellsInfo cellsRising ∧
    ∃ payload v, Accepted {} cellsInfo [cellsFrame 100 0 true] (cellsFrame 107 900000 true) payload ∧
      LastPublished {} cellsInfo [cellsFrame 100 0 true] 0 100 ∧ Carries payload 0 v ∧ 5 ≤ apart v 100 := by
  have relative := cells_relative_to_published {} cellsInfo cellsRising (by decide) rising_moves_published
  obtain ⟨first,_,_,payload1,taken1,carries1⟩ := cells_begin
  obtain ⟨second,valid2,held2⟩ := cells_rise 900000 true
  obtain ⟨_,valid1,held1,_⟩ := cells_begin
  have due := battery_overdue {} cellsInfo [] (cellsFrame 100 0 true) 900000 (Option.isSome_of_eq_some first) (.inl rfl) (by decide)
  rw [List.nil_append] at due
  obtain ⟨payload2,taken2,carries2⟩ := taken_carries {} cellsInfo [cellsFrame 100 0 true] (cellsFrame 107 900000 true) _ _ _ second (by decide) battery_named
    (by rw [Held.batteryBlock,if_pos (by decide),Held.deadband,valid1,held1]; decide +kernel) due (fun _ => rfl) 0 (by decide) (by decide) 107
    (congrArg (cellAt · 0) held2)
  have last : LastPublished {} cellsInfo [cellsFrame 100 0 true] 0 100 :=
    ⟨[],cellsFrame 100 0 true,[],payload1,rfl,taken1,carries1,fun m g rest none_ => absurd none_.symm (List.append_ne_nil_of_right_ne_nil m (List.cons_ne_nil g rest))⟩
  have steps := relative.steady.here [cellsFrame 100 0 true] [cellsFrame 109 1800000 true] (cellsFrame 107 900000 true) payload2 0 100 107 (by decide)
    taken2 last carries2
  exact ⟨relative,payload2,107,taken2,last,carries2,steps.resolve_left (by decide)⟩

-- 100 is published, 107 is refused, and 102 is then published, 2 away from it.
theorem refused_reading_moves_the_cells :
    ¬RelativeToPublished {} ⟨0x01,false⟩ [cellsFrame 100 0 true,cellsFrame 107 0 false,cellsFrame 102 900000 true] := by
  intro relative
  have third : renders cellsInfo (cellsFrame 102 900000 true).hdr (cellsFrame 102 900000 true).payload =
      some (text "gatelink",cellsStatus 102,none) := by rfl
  obtain ⟨first,_,_,payload1,taken1,carries1⟩ := cells_begin
  obtain ⟨second,valid2,held2⟩ := cells_rise 0 false
  have three := cells_after {} cellsInfo [cellsFrame 100 0 true,cellsFrame 107 0 false] (cellsFrame 102 900000 true) _ _ _ third (by decide)
  have held3 : (heldAfter {} cellsInfo [cellsFrame 100 0 true,cellsFrame 107 0 false,cellsFrame 102 900000 true]).cellMv = ⟨102,102,102,102⟩ := by
    refine three.2.trans ?_
    rw [Held.deadband,valid2,held2]
    rfl
  have before := battery_overdue {} cellsInfo [] (cellsFrame 100 0 true) 900000 (Option.isSome_of_eq_some first) (.inl rfl) (by decide)
  rw [List.nil_append] at before
  have due := battery_overdue {} cellsInfo [cellsFrame 100 0 true] (cellsFrame 107 0 false) 900000 (Option.isSome_of_eq_some second) before (by decide)
  rw [List.singleton_append] at due
  obtain ⟨payload3,taken3,carries3⟩ := taken_carries {} cellsInfo [cellsFrame 100 0 true,cellsFrame 107 0 false] (cellsFrame 102 900000 true) _ _ _
    third (by decide) battery_named (by rw [Held.batteryBlock,if_pos (by decide),Held.deadband,valid2,held2]; decide +kernel) due (fun _ => rfl)
    0 (by decide) (by decide) 102 (congrArg (cellAt · 0) held3)
  have last : LastPublished {} cellsInfo [cellsFrame 100 0 true,cellsFrame 107 0 false] 0 100 := by
    refine ⟨[],cellsFrame 100 0 true,[cellsFrame 107 0 false],payload1,rfl,taken1,carries1,?_⟩
    intro m g rest whole
    rcases m with _ | ⟨_,m⟩
    · obtain ⟨rfl,_⟩ := List.cons.inj whole
      refine ⟨refused {} cellsInfo [cellsFrame 100 0 true] (cellsFrame 107 0 false) fun _ => rfl,?_⟩
      rintro ⟨token,s,ahDrawn,is,stale⟩
      cases second.symm.trans is
      cases stale
    · cases (List.append_eq_nil_iff.mp (List.cons.inj whole).2.symm).2
  have steps := relative.steady.here [cellsFrame 100 0 true,cellsFrame 107 0 false] [] (cellsFrame 102 900000 true) payload3 0 100 102 (by decide)
    taken3 last carries3
  exact absurd steps (by decide)

end LoraRan.Bridge.Publish
