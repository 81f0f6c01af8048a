import LoraRan.Bridge.Publish
import LoraRan.Library.Ring
import LoraRan.Library.Occurrence

namespace LoraRan.Bridge.Publish
open Protocol Library.DecimalText Library.CheckedReads Library.Ring Library.Occurrence

theorem name_short (name : Option Bytes) (most : Nat) (key : Bytes) (short : ∀ n ∈ name, n.length ≤ most) :
    callMost (strOrNull key name) ≤ key.length + 8 + 6 * most := by
  unfold strOrNull
  cases name with
  | none =>
      simp only [callMost]
      omega
  | some n =>
      have bound := short n rfl
      simp only [callMost]
      omega

-- A text is as long as its characters' bytes.
theorem byteList_length (bytes : ByteArray) (i : Nat) (r : List UInt8) : (ByteArray.toList.loop bytes i r).length = bytes.size - i + r.length := by
  fun_induction ByteArray.toList.loop bytes i r with
  | case1 i r below ih =>
      rw [ih,List.length_cons]
      omega
  | case2 i r past =>
      rw [List.length_reverse]
      omega

theorem text_length (s : String) : (text s).length = s.utf8ByteSize := byteList_length s.toUTF8 0 []

theorem eventTypeName_short (v : UInt8) : ∀ n ∈ eventTypeName v, 0 < n.length ∧ n.length ≤ 23 := by
  unfold eventTypeName
  split
  all_goals
    intro n is
    cases is
  all_goals
    simp only [text_length]
    decide

theorem holdSourceName_short (v : UInt8) : ∀ n ∈ holdSourceName v, n.length ≤ 11 := by
  unfold holdSourceName
  split
  all_goals
    intro n is
    cases is
  all_goals
    simp only [text_length]
    decide

theorem directionName_short (v : UInt8) : ∀ n ∈ directionName v, n.length ≤ 12 := by
  unfold directionName
  split
  all_goals
    intro n is
    cases is
  all_goals
    simp only [text_length]
    decide

theorem gateStateName_short (v : UInt8) : ∀ n ∈ gateStateName v, n.length ≤ 14 := by
  unfold gateStateName
  split
  all_goals
    intro n is
    cases is
  all_goals
    simp only [text_length]
    decide

theorem resetCauseName_short (detail : UInt16) : (resetCauseName detail).length ≤ 14 := by
  unfold resetCauseName
  split
  all_goals
    simp only [text_length]
    decide

theorem inhibitPathName_short (detail : UInt16) : ∀ n ∈ inhibitPathName detail, n.length ≤ 10 := by
  unfold inhibitPathName
  split
  all_goals
    intro n is
    cases is
  all_goals
    simp only [text_length]
    decide

theorem event_calls_fit (ctxId : CtxId) (e : GateLinkEventV1) (synthetic : Bool) :
    ((eventCalls ctxId e synthetic).map callMost).sum ≤ 900 := by
  have type_ := name_short (eventTypeName e.eventType) 23 (text "event_type") fun n is => (eventTypeName_short e.eventType n is).2
  have hold := name_short (holdSourceName e.holdSource) 11 (text "hold_source") (holdSourceName_short e.holdSource)
  have direction := name_short (directionName e.direction) 12 (text "direction") (directionName_short e.direction)
  have gate := name_short (gateStateName e.gateState) 14 (text "gate_state") (gateStateName_short e.gateState)
  have path := name_short (inhibitPathName e.detail) 10 (text "inhibit_path") (inhibitPathName_short e.detail)
  have cause := resetCauseName_short e.detail
  have keys : (text "event_id").length = 8 ∧ (text "ctx_id").length = 6 ∧ (text "event_type").length = 10 ∧ (text "event_code").length = 10 ∧
      (text "follow_up").length = 9 ∧ (text "hold_source").length = 11 ∧ (text "direction").length = 9 ∧ (text "gate_state").length = 10 ∧
      (text "input_bits").length = 10 ∧ (text "detail").length = 6 ∧ (text "reset_cause").length = 11 ∧ (text "inhibit_path").length = 12 ∧
      (text "uptime_s").length = 8 ∧ (text "synthetic").length = 9 := by
    simp only [text_length]
    decide
  unfold eventCalls
  simp only [List.map_append,List.sum_append,List.map_cons,List.map_nil,List.sum_cons,List.sum_nil]
  split
  · split
    · simp only [callMost,List.map_cons,List.map_nil,List.sum_cons,List.sum_nil] at *
      omega
    · simp only [callMost,List.map_cons,List.map_nil,List.sum_cons,List.sum_nil] at *
      omega
  · split
    · simp only [callMost,List.map_cons,List.map_nil,List.sum_cons,List.sum_nil] at *
      omega
    · simp only [callMost,List.map_nil,List.sum_nil] at *
      omega

-- The document of any event fits its buffer, and its topic the topic's.
theorem event_fits (ctxId : CtxId) (e : GateLinkEventV1) (synthetic : Bool) :
    writeJson kMaxPayloadLen (eventCalls ctxId e synthetic) = some (jsonText (eventCalls ctxId e synthetic)) := by
  have calls := event_calls_fit ctxId e synthetic
  have whole := jsonText_length (eventCalls ctxId e synthetic)
  rw [writeJson_text,if_pos (by rw [kMaxPayloadLen]; omega)]

theorem nodeTopicName_short (id : NodeId) : ∀ token ∈ nodeTopicName id, 0 < token.length ∧ token.length ≤ 8 := by
  unfold nodeTopicName
  split
  all_goals
    intro n is
    cases is
  all_goals
    simp only [text_length]
    decide

theorem event_topic (id : NodeId) (token : Bytes) (named : nodeTopicName id = some token) (v : UInt8) :
    ∃ topic, topicEvent token ((eventTypeName v).getD (text "unknown")) kMaxTopicLen = some topic := by
  obtain ⟨some_,short⟩ := nodeTopicName_short id token named
  have leaf : 0 < ((eventTypeName v).getD (text "unknown")).length ∧ ((eventTypeName v).getD (text "unknown")).length ≤ 23 := by
    cases name : eventTypeName v with
    | none =>
        rw [Option.getD_none,text_length]
        decide
    | some n => exact eventTypeName_short v n name
  have parts : (text "lran/").length = 5 ∧ (text "/event/").length = 7 := by
    simp only [text_length]
    decide
  have nonempty : ¬ (token = [] ∨ (eventTypeName v).getD (text "unknown") = []) := by
    rintro (empty | empty)
    · rw [empty] at some_
      cases some_
    · rw [empty] at leaf
      cases leaf.1
  have room : (text "lran/" ++ token ++ text "/event/" ++ (eventTypeName v).getD (text "unknown")).length < kMaxTopicLen := by
    simp only [List.length_append,kMaxTopicLen]
    omega
  rw [topicEvent,if_neg nonempty,fitted,if_pos room]
  exact ⟨_,rfl⟩

structure EventKey where
  node : NodeId
  ctxId : CtxId
  eventId : UInt32
  followUp : Bool
  deriving DecidableEq

-- The event a frame brings, where it brings one the bridge can name the node and read the payload of.
def eventOf (info : NodeInfo) (hdr : Header) (payload : Bytes) : Option GateLinkEventV1 :=
  if hdr.type = .event ∧ nodeIndex info.id < nodeTable.length ∧ (nodeTopicName info.id).isSome ∧ hdr.schema = schemaGateLinkEventV1 then
    match GateLinkEventV1.deserialize (memoryOf payload) payload.length with
    | some (.ok e) => some e
    | _ => none
  else none

def eventKey (info : NodeInfo) (hdr : Header) (e : GateLinkEventV1) : EventKey :=
  ⟨info.id,hdr.ctxId,e.eventId,bit e.eventFlags kEventFlagFollowUp⟩

-- A node's ring as the keys it remembers.
def remembered (p : PublicationPolicy) (id : NodeId) (c : Nat) : Option EventKey :=
  let s := p.seen (nodeIndex id) c
  if s.valid then some ⟨id,s.ctxId,s.eventId,s.followUp⟩ else none

theorem seen_remembered (p : PublicationPolicy) (info : NodeInfo) (hdr : Header) (e : GateLinkEventV1) :
    ((List.range kEventMemory).any fun i => seenMatches (p.seen (nodeIndex info.id) i) hdr.ctxId e.eventId (bit e.eventFlags kEventFlagFollowUp)) = true ↔
      ∃ c < kEventMemory, remembered p info.id c = some (eventKey info hdr e) := by
  simp only [List.any_eq_true,List.mem_range,seenMatches,Bool.and_eq_true,decide_eq_true_eq,remembered,eventKey]
  constructor
  · rintro ⟨c,inside,⟨⟨valid,ctx⟩,id⟩,edge⟩
    refine ⟨c,inside,?_⟩
    rw [if_pos valid,ctx,id,edge]
  · rintro ⟨c,inside,same⟩
    split at same
    case isTrue valid =>
      have parts := Option.some.inj same
      simp only [EventKey.mk.injEq] at parts
      exact ⟨c,inside,⟨⟨valid,parts.2.1⟩,parts.2.2.1⟩,parts.2.2.2⟩
    case isFalse => cases same

-- The ring is all of the policy that decides about an event.
structure SameRing (p q : PublicationPolicy) : Prop where
  seen : q.seen = p.seen
  next : q.seenNext = p.seenNext

theorem SameRing.remembered {p q : PublicationPolicy} (same : SameRing p q) : remembered q = remembered p := by
  funext id c
  unfold Publish.remembered
  rw [same.seen]

theorem onEvent_none (p : PublicationPolicy) (info : NodeInfo) (hdr : Header) (payload : Bytes) (synthetic : Bool) (sink : Sink)
    (nothing : eventOf info hdr payload = none) :
    (p.onEvent info hdr payload synthetic sink).1 = [] ∧ SameRing p (p.onEvent info hdr payload synthetic sink).2 := by
  unfold PublicationPolicy.onEvent
  split
  · exact ⟨rfl,rfl,rfl⟩
  case isFalse type_ =>
    rw [Classical.not_not] at type_
    unfold eventOf at nothing
    by_cases known : nodeIndex info.id < nodeTable.length
    · by_cases schema : hdr.schema = schemaGateLinkEventV1
      · cases named : nodeTopicName info.id with
        | none =>
            simp only [known,if_true]
            exact ⟨trivial,rfl,rfl⟩
        | some token =>
            rw [if_pos ⟨type_,known,by rw [named]; rfl,schema⟩] at nothing
            simp only [known,schema,if_true]
            split
            · exact ⟨rfl,rfl,rfl⟩
            case h_2 decoded =>
              rw [decoded] at nothing
              cases nothing
            · exact ⟨rfl,rfl,rfl⟩
      · simp only [schema,if_false]
        split
        · exact ⟨rfl,rfl,rfl⟩
        case h_2 impossible => cases impossible
        · exact ⟨rfl,rfl,rfl⟩
    · simp only [known,if_false]
      exact ⟨trivial,rfl,rfl⟩

-- What an event call does, by what the node's ring remembers.
theorem onEvent_some (p : PublicationPolicy) (info : NodeInfo) (hdr : Header) (payload : Bytes) (synthetic : Bool) (sink : Sink)
    (e : GateLinkEventV1) (is : eventOf info hdr payload = some e) :
    if info.isBench ∨ ∃ c < kEventMemory, remembered p info.id c = some (eventKey info hdr e) then
      (p.onEvent info hdr payload synthetic sink).1 = [] ∧ SameRing p (p.onEvent info hdr payload synthetic sink).2
    else
      ∃ emission : Emission, emission.retain = false ∧ emission.qos = 1 ∧
        (p.onEvent info hdr payload synthetic sink).1 = [(emission,sink emission)] ∧
        if sink emission then
          remembered (p.onEvent info hdr payload synthetic sink).2 info.id =
              Function.update (remembered p info.id) (p.seenNext (nodeIndex info.id)) (some (eventKey info hdr e)) ∧
            (p.onEvent info hdr payload synthetic sink).2.seenNext (nodeIndex info.id) = (p.seenNext (nodeIndex info.id) + 1) % kEventMemory ∧
            ∀ i, i ≠ nodeIndex info.id → (p.onEvent info hdr payload synthetic sink).2.seen i = p.seen i ∧
              (p.onEvent info hdr payload synthetic sink).2.seenNext i = p.seenNext i
        else SameRing p (p.onEvent info hdr payload synthetic sink).2 := by
  unfold eventOf at is
  split at is
  case isFalse => cases is
  case isTrue facts =>
    obtain ⟨type_,known,named,schema⟩ := facts
    obtain ⟨token,named⟩ := Option.isSome_iff_exists.mp named
    have decoded : GateLinkEventV1.deserialize (memoryOf payload) payload.length = some (.ok e) := by
      split at is
      case h_1 found => rw [found,Option.some.inj is]
      case h_2 => cases is
    obtain ⟨topic,fits⟩ := event_topic info.id token named e.eventType
    have matched := seen_remembered p info hdr e
    unfold PublicationPolicy.onEvent
    simp only [type_,known,named,schema,decoded,event_fits,fits,ne_eq,not_true_eq_false,if_true,if_false,PublicationPolicy.count]
    by_cases bench : info.isBench = true
    · rw [if_pos (.inl bench),if_pos bench]
      exact ⟨rfl,rfl,rfl⟩
    · rw [if_neg bench]
      by_cases seen : ∃ c < kEventMemory, remembered p info.id c = some (eventKey info hdr e)
      · rw [if_pos (.inr seen),if_pos (matched.mpr seen)]
        exact ⟨rfl,rfl,rfl⟩
      · rw [if_neg (not_or.mpr ⟨bench,seen⟩),if_neg fun found => seen (matched.mp found)]
        obtain ⟨emission,made⟩ : ∃ emission : Emission, emission =
            {topic := topic,payload := jsonText (eventCalls hdr.ctxId e synthetic),retain := false,qos := 1} := ⟨_,rfl⟩
        rw [← made]
        refine ⟨emission,by rw [made],by rw [made],?_⟩
        cases taken : sink emission with
        | true =>
            rw [if_pos rfl,if_pos rfl]
            refine ⟨rfl,?_,?_,?_⟩
            · funext c
              simp only [remembered,Function.update_self]
              by_cases here : c = p.seenNext (nodeIndex info.id)
              · subst here
                simp only [Function.update_self,if_true,eventKey]
              · simp only [Function.update_of_ne here]
                rfl
            · exact Function.update_self _ _ _
            · intro i other
              exact ⟨Function.update_of_ne other _ _,Function.update_of_ne other _ _⟩
        | false =>
            rw [if_neg Bool.false_ne_true,if_neg Bool.false_ne_true]
            exact ⟨rfl,rfl,rfl⟩

theorem SameRing.refl (p : PublicationPolicy) : SameRing p p := ⟨rfl,rfl⟩

theorem SameRing.trans {p q r : PublicationPolicy} (first : SameRing p q) (second : SameRing q r) : SameRing p r :=
  ⟨second.seen.trans first.seen,second.next.trans first.next⟩

theorem offer_ring (p : PublicationPolicy) (ni : Nat) (d : Domain) (token : Bytes) (r : Rendered) (nowMs : UInt32) (sink : Sink) :
    SameRing p (p.offer ni d token r nowMs sink).2 :=
  have untouched := offer_untouched p ni d token r nowMs sink
  ⟨untouched.seen,untouched.next⟩

theorem hold_ring (p : PublicationPolicy) (ni : Nat) (held : Held) : SameRing p (p.hold ni held) := ⟨rfl,rfl⟩

theorem statusDocuments_ring (p : PublicationPolicy) (ni : Nat) (token : Bytes) (s : GateLinkStatusV1) (ahDrawn : Option UInt16)
    (nowMs : UInt32) (utcAtRx : Int64) (sink : Sink) : SameRing p (p.statusDocuments ni token s ahDrawn nowMs utcAtRx sink).2 := by
  have gate := fun (q : PublicationPolicy) fire syn => (hold_ring q ni _).trans (offer_ring (q.hold ni
    {q.held ni with stable := (coverState s.gateState (q.held ni).stable).2}) ni .gate token
    (render (gateCalls s (coverState s.gateState (q.held ni).stable).1 fire syn) []) nowMs sink)
  have detect := fun (q : PublicationPolicy) syn => (hold_ring q ni _).trans (offer_ring (q.hold ni ((q.held ni).traverse s utcAtRx)) ni .detect
    token (render (detectCalls s ((q.held ni).traverse s utcAtRx) syn) []) nowMs sink)
  unfold PublicationPolicy.statusDocuments
  refine ((((gate p _ _).trans (detect _ _)).trans (offer_ring ..)).trans ((hold_ring ..).trans (offer_ring ..))).trans (offer_ring ..)

theorem onStatus_ring (p : PublicationPolicy) (info : NodeInfo) (hdr : Header) (payload : Bytes) (nowMs : UInt32) (utcAtRx : Int64) (sink : Sink) :
    SameRing p (p.onStatus info hdr payload nowMs utcAtRx sink).2 := by
  have counted : ∀ f, SameRing p (p.count f) := fun f => ⟨rfl,rfl⟩
  unfold PublicationPolicy.onStatus
  split
  · exact .refl p
  · dsimp only
    split
    · exact ⟨rfl,rfl⟩
    · split
      · split
        · split
          · exact ⟨rfl,rfl⟩
          · exact (counted _).trans (offer_ring ..)
        · exact ⟨rfl,rfl⟩
      · split
        · exact ⟨rfl,rfl⟩
        · split
          · exact ⟨rfl,rfl⟩
          · exact (counted _).trans (statusDocuments_ring ..)

inductive Call where
  | event (info : NodeInfo) (hdr : Header) (payload : Bytes) (synthetic : Bool) (sink : Sink)
  | status (info : NodeInfo) (hdr : Header) (payload : Bytes) (nowMs : UInt32) (utcAtRx : Int64) (sink : Sink)
  | forgetPublished
  | setLevers (levers : PublishLevers)

def PublicationPolicy.answer (p : PublicationPolicy) : Call → Offers × PublicationPolicy
  | .event info hdr payload synthetic sink => p.onEvent info hdr payload synthetic sink
  | .status info hdr payload nowMs utcAtRx sink => p.onStatus info hdr payload nowMs utcAtRx sink
  | .forgetPublished => ([],p.forgetPublished)
  | .setLevers levers => ([],{p with levers := levers})

def after (calls : List Call) : PublicationPolicy := calls.foldl (fun p call => (p.answer call).2) {}

def offers (pre : List Call) (call : Call) : Offers := ((after pre).answer call).1

-- The event a call is handed, with the node it is of.
def Call.key : Call → Option EventKey
  | .event info hdr payload _ _ => (eventOf info hdr payload).map (eventKey info hdr)
  | .status .. | .forgetPublished | .setLevers _ => none

def Call.bench : Call → Bool
  | .event info .. => info.isBench
  | .status info .. => info.isBench
  | .forgetPublished | .setLevers _ => false

def Call.isEvent : Call → Bool
  | .event .. => true
  | .status .. | .forgetPublished | .setLevers _ => false

def acceptedBy (p : PublicationPolicy) (call : Call) : Option EventKey := if (p.answer call).1.any (·.2) then call.key else none

-- The sink took the event of this call.
def Accepts (pre : List Call) (call : Call) (key : EventKey) : Prop := acceptedBy (after pre) call = some key

def accepted (p : PublicationPolicy) : List Call → List EventKey
  | [] => []
  | call :: rest => (acceptedBy p call).toList ++ accepted (p.answer call).2 rest

theorem accepted_append (p : PublicationPolicy) (first later : List Call) :
    accepted p (first ++ later) = accepted p first ++ accepted (first.foldl (fun p call => (p.answer call).2) p) later := by
  induction first generalizing p with
  | nil => rfl
  | cons call rest ih => rw [List.cons_append,accepted,ih,accepted,List.append_assoc,List.foldl_cons]

theorem after_snoc (pre : List Call) (call : Call) : after (pre ++ [call]) = ((after pre).answer call).2 := by
  rw [after,List.foldl_append]
  rfl

theorem accepted_snoc (pre : List Call) (call : Call) : accepted {} (pre ++ [call]) = accepted {} pre ++ (acceptedBy (after pre) call).toList := by
  rw [accepted_append,accepted,accepted,List.append_nil]
  rfl

theorem mem_accepted (calls : List Call) (key : EventKey) : key ∈ accepted {} calls ↔ Occurs (fun pre call => Accepts pre call key) calls := by
  induction calls using List.reverseRecOn with
  | nil => exact ⟨fun impossible => absurd impossible List.not_mem_nil,fun occurs => absurd occurs occurs_nil⟩
  | append_singleton calls call ih => rw [accepted_snoc,List.mem_append,ih,occurs_snoc,Option.mem_toList,Accepts]

-- Every node's ring holds the last events of it the sink took.
def Tracked (p : PublicationPolicy) (taken : List EventKey) : Prop :=
  ∀ id, nodeIndex id < nodeTable.length →
    Recent kEventMemory (remembered p id) (p.seenNext (nodeIndex id)) (taken.filter fun key => decide (key.node = id))

theorem Tracked.same {p q : PublicationPolicy} {taken : List EventKey} (tracked : Tracked p taken) (same : SameRing p q) : Tracked q taken := by
  intro id known
  rw [same.remembered,same.next]
  exact tracked id known

theorem nodeIndex_inj (id other : NodeId) (known : nodeIndex id < nodeTable.length) (same : nodeIndex id = nodeIndex other) : id = other :=
  (List.idxOf_inj (List.idxOf_lt_length_iff.mp known)).mp same

theorem tracked_event (p : PublicationPolicy) (info : NodeInfo) (hdr : Header) (payload : Bytes) (synthetic : Bool) (sink : Sink)
    (taken : List EventKey) (tracked : Tracked p taken) :
    Tracked (p.onEvent info hdr payload synthetic sink).2
      (taken ++ (acceptedBy p (.event info hdr payload synthetic sink)).toList) := by
  cases is : eventOf info hdr payload with
  | none =>
      obtain ⟨nothing,same⟩ := onEvent_none p info hdr payload synthetic sink is
      have none_ : acceptedBy p (.event info hdr payload synthetic sink) = none := by
        rw [acceptedBy,PublicationPolicy.answer,nothing]
        rfl
      rw [none_,Option.toList_none,List.append_nil]
      exact tracked.same same
  | some e =>
      have known : nodeIndex info.id < nodeTable.length := by
        unfold eventOf at is
        split at is
        case isTrue facts => exact facts.2.1
        case isFalse => cases is
      have named : (Call.event info hdr payload synthetic sink).key = some (eventKey info hdr e) := by
        rw [Call.key,is]
        rfl
      have does := onEvent_some p info hdr payload synthetic sink e is
      split at does
      case isTrue =>
        obtain ⟨nothing,same⟩ := does
        have none_ : acceptedBy p (.event info hdr payload synthetic sink) = none := by
          rw [acceptedBy,PublicationPolicy.answer,nothing]
          rfl
        rw [none_,Option.toList_none,List.append_nil]
        exact tracked.same same
      case isFalse =>
        obtain ⟨emission,_,_,offered,does⟩ := does
        cases took : sink emission with
        | false =>
            rw [took,if_neg Bool.false_ne_true] at does
            have none_ : acceptedBy p (.event info hdr payload synthetic sink) = none := by
              rw [acceptedBy,PublicationPolicy.answer,offered,took]
              rfl
            rw [none_,Option.toList_none,List.append_nil]
            exact tracked.same does
        | true =>
            rw [took,if_pos rfl] at does
            obtain ⟨cells,next,others⟩ := does
            have some_ : acceptedBy p (.event info hdr payload synthetic sink) = some (eventKey info hdr e) := by
              rw [acceptedBy,PublicationPolicy.answer,offered,took]
              exact named
            rw [some_]
            intro id known_
            rw [Option.toList_some,List.filter_append]
            by_cases mine : info.id = id
            · subst mine
              rw [List.filter_singleton,decide_eq_true (show (eventKey info hdr e).node = info.id by rfl),cells,next]
              exact (tracked info.id known).push _ (by decide)
            · have apart : nodeIndex id ≠ nodeIndex info.id := fun same => mine (nodeIndex_inj id info.id known_ same).symm
              obtain ⟨seen,next⟩ := others _ apart
              have cells : remembered (p.onEvent info hdr payload synthetic sink).2 id = remembered p id := by
                funext c
                simp only [remembered,seen]
              rw [List.filter_singleton,decide_eq_false (show (eventKey info hdr e).node ≠ id from mine),cells,next]
              rw [cond_false,List.append_nil]
              exact tracked id known_

theorem tracked_step (p : PublicationPolicy) (call : Call) (taken : List EventKey) (tracked : Tracked p taken) :
    Tracked (p.answer call).2 (taken ++ (acceptedBy p call).toList) := by
  cases call with
  | event info hdr payload synthetic sink => exact tracked_event p info hdr payload synthetic sink taken tracked
  | status info hdr payload nowMs utcAtRx sink =>
      have none_ : acceptedBy p (.status info hdr payload nowMs utcAtRx sink) = none := by
        unfold acceptedBy
        split <;> rfl
      rw [none_,Option.toList_none,List.append_nil]
      exact tracked.same (onStatus_ring p info hdr payload nowMs utcAtRx sink)
  | forgetPublished =>
      rw [show acceptedBy p .forgetPublished = none by rfl,Option.toList_none,List.append_nil]
      exact tracked.same ⟨rfl,rfl⟩
  | setLevers levers =>
      rw [show acceptedBy p (.setLevers levers) = none by rfl,Option.toList_none,List.append_nil]
      exact tracked.same ⟨rfl,rfl⟩

theorem tracked_run (calls : List Call) : Tracked (after calls) (accepted {} calls) := by
  induction calls using List.reverseRecOn with
  | nil => exact fun id _ => Recent.nil kEventMemory
  | append_singleton calls call ih =>
      rw [after_snoc,accepted_snoc]
      exact tracked_step (after calls) call _ ih

theorem mem_ring (calls : List Call) (key : EventKey) (known : nodeIndex key.node < nodeTable.length) :
    (∃ c < kEventMemory, remembered (after calls) key.node c = some key) ↔
      key ∈ ((accepted {} calls).filter fun other => decide (other.node = key.node)).drop
        (((accepted {} calls).filter fun other => decide (other.node = key.node)).length - kEventMemory) :=
  (tracked_run calls key.node known).found key (by decide)

-- What the ring lets a call do with its event: withheld from it when it is a bench node's or still remembered, else offered to the sink.
theorem call_event (pre : List Call) (call : Call) (key : EventKey) (is : call.key = some key) :
    nodeIndex key.node < nodeTable.length ∧
      if call.bench ∨ ∃ c < kEventMemory, remembered (after pre) key.node c = some key then offers pre call = []
      else ∃ emission ok, offers pre call = [(emission,ok)] ∧ (ok = true ↔ Accepts pre call key) := by
  cases call with
  | status | forgetPublished | setLevers => cases is
  | event info hdr payload synthetic sink =>
      obtain ⟨e,found,rfl⟩ := Option.map_eq_some_iff.mp is
      constructor
      · unfold eventOf at found
        split at found
        case isTrue facts => exact facts.2.1
        case isFalse => cases found
      · have does := onEvent_some (after pre) info hdr payload synthetic sink e found
        simp only [Call.bench,show (eventKey info hdr e).node = info.id by rfl]
        split
        case isTrue withheld =>
          rw [if_pos withheld] at does
          exact does.1
        case isFalse free =>
          rw [if_neg free] at does
          obtain ⟨emission,_,_,offered,_⟩ := does
          refine ⟨emission,sink emission,offered,?_⟩
          rw [Accepts,acceptedBy,PublicationPolicy.answer,offered,is]
          cases sink emission with
          | true => exact ⟨fun _ => rfl,fun _ => rfl⟩
          | false =>
              constructor
              · intro impossible
                cases impossible
              · intro impossible
                cases impossible

theorem accepts_key (pre : List Call) (call : Call) (key : EventKey) (takes : Accepts pre call key) : call.key = some key := by
  unfold Accepts acceptedBy at takes
  split at takes
  · exact takes
  · cases takes

theorem accepts_forgotten (pre : List Call) (call : Call) (key : EventKey) (takes : Accepts pre call key) :
    nodeIndex key.node < nodeTable.length ∧ ¬∃ c < kEventMemory, remembered (after pre) key.node c = some key := by
  obtain ⟨known,does⟩ := call_event pre call key (accepts_key pre call key takes)
  refine ⟨known,fun found => ?_⟩
  rw [if_pos (.inr found)] at does
  unfold Accepts acceptedBy at takes
  rw [show ((after pre).answer call).1 = [] from does] at takes
  cases takes

-- Events of the node, other than this one, whose emissions the sink took over a stretch of calls.
def othersTaken (pre : List Call) (key : EventKey) (mid : List Call) : List EventKey :=
  (accepted (after pre) mid).filter fun other => decide (other.node = key.node ∧ other ≠ key)

-- From the first emission of an event the sink took to any later copy of it, fewer than the ring's sixteen others of the node were taken.
def Spaced (calls : List Call) : Prop :=
  ∀ pre first mid copy post key, calls = pre ++ first :: (mid ++ copy :: post) → Accepts pre first key → key ∉ accepted {} pre →
    copy.key = some key → (othersTaken (pre ++ [first]) key mid).length < kEventMemory

theorem Spaced.init (calls : List Call) (last : Call) (spaced : Spaced (calls ++ [last])) : Spaced calls := by
  intro pre first mid copy post key whole
  refine spaced pre first mid copy (post ++ [last]) key ?_
  rw [whole]
  simp

theorem accepted_short (p : PublicationPolicy) (calls : List Call) : (accepted p calls).length ≤ calls.length := by
  induction calls generalizing p with
  | nil => exact Nat.le_refl 0
  | cons call rest ih =>
      have more := ih (p.answer call).2
      have one : (acceptedBy p call).toList.length ≤ 1 := Option.length_toList_le
      rw [accepted,List.length_append,List.length_cons]
      omega

theorem spaced_short (calls : List Call) (short : calls.length ≤ kEventMemory + 1) : Spaced calls := by
  rintro pre first mid copy post key rfl _ _ _
  have some_ := accepted_short (after (pre ++ [first])) mid
  have fewer : (othersTaken (pre ++ [first]) key mid).length ≤ mid.length := Nat.le_trans (List.length_filter_le ..) some_
  simp only [List.length_append,List.length_cons] at short
  omega

def TakenOnce (pre : List Call) (call : Call) : Prop :=
  ∀ key, Accepts pre call key → ¬Occurs (fun before earlier => Accepts before earlier key) pre

theorem taken_nodup (calls : List Call) (once : Always TakenOnce calls) : (accepted {} calls).Nodup := by
  induction calls using List.reverseRecOn with
  | nil => exact List.nodup_nil
  | append_singleton calls last ih =>
      obtain ⟨before,now⟩ := (always_snoc calls last).mp once
      rw [accepted_snoc]
      cases took : acceptedBy (after calls) last with
      | none =>
          rw [Option.toList_none,List.append_nil]
          exact ih before
      | some key =>
          have fresh : key ∉ accepted {} calls := fun member => now key took ((mem_accepted calls key).mp member)
          exact List.Nodup.append (ih before) (List.nodup_singleton key) (List.disjoint_singleton.mpr fresh)

-- Between an event's emission and its copy the ring has not come round, so the copy finds it.
theorem taken_once (calls : List Call) (spaced : Spaced calls) : Always TakenOnce calls := by
  induction calls using List.reverseRecOn with
  | nil => exact always_nil
  | append_singleton calls last ih =>
      have once := ih (spaced.init calls last)
      refine (always_snoc calls last).mpr ⟨once,?_⟩
      rintro key takes ⟨pre,first,mid,rfl,taken⟩
      have whole : accepted {} (pre ++ first :: mid) = accepted {} pre ++ key :: accepted (after (pre ++ [first])) mid := by
        have snoc := accepted_snoc pre first
        rw [show acceptedBy (after pre) first = some key from taken,Option.toList_some] at snoc
        have parts := accepted_append {} (pre ++ [first]) mid
        rw [snoc,List.append_assoc,List.append_assoc] at parts
        exact parts
      have distinct := taken_nodup _ once
      rw [whole] at distinct
      obtain ⟨_,⟨absent,_⟩,apart⟩ := List.nodup_append.mp distinct |>.imp_right fun both => both.imp_left List.nodup_cons.mp
      have fresh : key ∉ accepted {} pre := fun member => apart key member key List.mem_cons_self rfl
      have few := spaced pre first mid last [] key (by simp) taken fresh (accepts_key _ last key takes)
      have mine : (accepted (after (pre ++ [first])) mid).filter (fun other => decide (other.node = key.node)) = othersTaken (pre ++ [first]) key mid := by
        refine List.filter_congr ?_
        intro other member
        have differs : other ≠ key := fun same => absent (same ▸ member)
        simp [differs]
      obtain ⟨known,forgotten⟩ := accepts_forgotten _ last key takes
      refine forgotten ((mem_ring (pre ++ first :: mid) key known).mpr ?_)
      rw [whole,List.filter_append,List.filter_cons_of_pos (by simp),mine]
      exact mem_recent _ _ key few

-- A copy of an event that the sink does not refuse leaves it taken, now or already.
theorem copy_taken (pre : List Call) (call : Call) (key : EventKey) (is : call.key = some key) (real : call.bench = false)
    (unrefused : ∀ emission, (emission,false) ∉ offers pre call) :
    Accepts pre call key ∨ Occurs (fun before earlier => Accepts before earlier key) pre := by
  obtain ⟨known,does⟩ := call_event pre call key is
  by_cases found : ∃ c < kEventMemory, remembered (after pre) key.node c = some key
  · right
    have member := List.mem_of_mem_drop ((mem_ring pre key known).mp found)
    exact (mem_accepted pre key).mp (List.mem_filter.mp member).1
  · left
    rw [if_neg (not_or.mpr ⟨by rw [real]; exact Bool.false_ne_true,found⟩)] at does
    obtain ⟨emission,ok,offered,took⟩ := does
    cases ok with
    | true => exact took.mp rfl
    | false => exact absurd (offered ▸ List.mem_singleton.mpr rfl) (unrefused emission)

theorem event_offers (pre : List Call) (call : Call) (isEvent : call.isEvent = true) (emission : Emission) (ok : Bool)
    (offered : (emission,ok) ∈ offers pre call) : emission.retain = false ∧ emission.qos = 1 ∧ call.bench = false ∧ call.key.isSome := by
  cases call with
  | status | forgetPublished | setLevers => cases isEvent
  | event info hdr payload synthetic sink =>
      unfold offers PublicationPolicy.answer at offered
      cases is : eventOf info hdr payload with
      | none =>
          rw [(onEvent_none (after pre) info hdr payload synthetic sink is).1] at offered
          cases offered
      | some e =>
          have does := onEvent_some (after pre) info hdr payload synthetic sink e is
          split at does
          case isTrue =>
            rw [does.1] at offered
            cases offered
          case isFalse free =>
            obtain ⟨made,retain,qos,shown,_⟩ := does
            rw [shown,List.mem_singleton,Prod.mk.injEq] at offered
            obtain ⟨rfl,rfl⟩ := offered
            refine ⟨retain,qos,?_,?_⟩
            · exact Bool.eq_false_iff.mpr (not_or.mp free).1
            · rw [Call.key,is]
              rfl

-- An event call hands its event to the sink while the ring does not remember it, so an unrefused copy is not kept back.
structure PublishedOnce (calls : List Call) : Prop where
  once : Always TakenOnce calls
  form : Always (fun pre call => call.isEvent = true → ∀ emission ok, (emission,ok) ∈ offers pre call →
    emission.retain = false ∧ emission.qos = 1 ∧ call.bench = false ∧ call.key.isSome) calls
  taken : Always (fun pre call => ∀ key, call.key = some key → call.bench = false → (∀ emission, (emission,false) ∉ offers pre call) →
    Accepts pre call key ∨ Occurs (fun before earlier => Accepts before earlier key) pre) calls
  edges : ∀ node ctxId eventId,
    (∀ followUp, Occurs (fun pre call => call.key = some ⟨node,ctxId,eventId,followUp⟩ ∧ call.bench = false ∧
      ∀ emission, (emission,false) ∉ offers pre call) calls) →
    ∀ followUp, Occurs (fun pre call => Accepts pre call ⟨node,ctxId,eventId,followUp⟩) calls

theorem events_published_once (calls : List Call) (spaced : Spaced calls) : PublishedOnce calls := by
  refine ⟨taken_once calls spaced,?_,?_,?_⟩
  · rintro ⟨pre,call,_,_,fails⟩
    exact fails (event_offers pre call)
  · rintro ⟨pre,call,_,_,fails⟩
    exact fails (copy_taken pre call)
  · intro node ctxId eventId received followUp
    obtain ⟨pre,call,post,rfl,is,real,unrefused⟩ := received followUp
    rcases copy_taken pre call _ is real unrefused with now | earlier
    · exact ⟨pre,call,post,rfl,now⟩
    · exact earlier.later pre (call :: post)

-- A refused event, its copy, a copy of that, and the follow-up.
def vehicleSeen (eventFlags : UInt8) (sink : Sink) : Call :=
  .event ⟨0x01,false⟩ {type := .event,src := 0x01,schema := schemaGateLinkEventV1,ctxId := 7}
    [0x04,eventFlags,0x00,0x01,0x01,0x00,0x00,0x00,0x2A,0x00,0x00,0x00,0x10,0x00,0x00,0x00] false sink

theorem vehicle_seen_published_once : PublishedOnce [vehicleSeen 0 fun _ => false,vehicleSeen 0 fun _ => true,vehicleSeen 0 fun _ => true,
    vehicleSeen 1 fun _ => true] :=
  events_published_once _ (spaced_short _ (by decide))

end LoraRan.Bridge.Publish
