import LoraRan.System.HexLink

namespace LoraRan.System.HexAnswers
open Protocol Node Bridge GateLink HexLink Library.StepSystem

-- A HEX_REQ sent to this node.
def Asked (s : Link) (m : Mark) : Prop := m.dst = s.node.ctx.id ∧ ∃ bytes, (bytes,m) ∈ s.requests

-- A reply taken while a job made from that HEX_REQ was running.
def Replied (s : Link) (m : Mark) (hex : Bytes) : Prop := ∃ number, (number,m) ∈ s.forwarded ∧ (number,hex) ∈ s.matched

-- The answer behind an Answered outcome: a HEX_RSP of the node, made for a HEX_REQ of this submission; and a string under OK
-- is a reply the charger gave to the job made from it.
def Agreed (s : Link) (submission : Nat) (status : UInt8) (rsp : Bytes) (answer : Option (Bytes × Mark)) : Prop :=
  ∃ bytes m, answer = some (bytes,m) ∧ (bytes,m) ∈ s.answers ∧ Asked s m ∧ m.submission = submission ∧
    (∃ hdr hex ectx, hdr.type = .hexRsp ∧ hdr.src = s.node.ctx.id ∧ hdr.seq = m.seq ∧
      encode hdr (HexRsp.serialize ⟨status,hex⟩) ectx maxFrame = .ok bytes) ∧
    (status = HexStatus.ok.code → rsp ≠ [] → Replied s m rsp)

-- What a HEX_RSP of the node is worth.
def Worth (s : Link) (m : Mark) (hdr : Header) (payload : Bytes) : Prop :=
  hdr.type = .hexRsp → hdr.src = s.node.ctx.id ∧ hdr.seq = m.seq ∧ Asked s m ∧
    ∃ (status : HexStatus) (hex : Bytes), payload = HexRsp.serialize ⟨status.code,hex⟩ ∧ (status = .ok → hex ≠ [] → Replied s m hex)

def Truthful (s : Link) (frame : Bytes × Mark) : Prop :=
  ∃ hdr payload ectx, Worth s frame.2 hdr payload ∧ encode hdr payload ectx maxFrame = .ok frame.1

-- The node's side.
structure Honest (s : Link) : Prop where
  sent : ∀ frame ∈ s.sent, registered frame.2.dst = true ∧ frame ∈ s.requests ∧
    ∃ ctx ver payload ectx, encode (hexHeader frame.2.dst ctx frame.2.seq ver) payload ectx maxFrame = .ok frame.1
  flying : s.proxy.busy = true → registered s.proxy.req.dst = true
  queued : s.queue.map Prod.fst = s.node.outbox
  held : s.node.ctx.hexPending.active = true →
    Asked s s.holding ∧ s.holding.seq = s.node.ctx.hexPending.seq ∧ (s.node.app.forwards,s.holding) ∈ s.forwarded
  slots : Slots s.matched s.node.app
  queue : ∀ frame ∈ s.queue, Truthful s frame
  air : ∀ frame ∈ s.air, Truthful s frame ∧ frame ∈ s.answers

def InFlight (s : Link) : Prop := s.proxy.phase = .sendDue ∨ s.proxy.phase = .awaiting

-- The proxy's side.
structure Fair (s : Link) : Prop where
  alone : InFlight s → ∀ m ∈ s.outstanding, m.dst = s.proxy.req.dst → m.seq = s.proxy.seq → m.submission = s.current
  answered : s.proxy.phase = .resolved → s.proxy.outcome = .answered → Agreed s s.current s.proxy.status s.proxy.rsp s.answer
  resolved : ∀ r ∈ s.resolved, r.outcome = .answered → Agreed s r.submission r.status r.rsp r.answer

-- Histories only grow, and the node stays who it is.
structure Grows (s s' : Link) : Prop where
  id : s'.node.ctx.id = s.node.ctx.id
  requests : s.requests ⊆ s'.requests
  answers : s.answers ⊆ s'.answers
  forwarded : s.forwarded ⊆ s'.forwarded
  matched : s.matched ⊆ s'.matched

section
variable {mac : Mac} {payloads : Payloads} {keys : NodeId → NodeKey} {listen : DecodeCtx} {s s' : Link}

theorem Asked.mono {m : Mark} (asked : Asked s m) (grows : Grows s s') : Asked s' m := by
  obtain ⟨here,bytes,member⟩ := asked
  exact ⟨here.trans grows.id.symm,bytes,grows.requests member⟩

theorem Replied.mono {m : Mark} {hex : Bytes} (replied : Replied s m hex) (grows : Grows s s') : Replied s' m hex := by
  obtain ⟨number,forwarded,matched⟩ := replied
  exact ⟨number,grows.forwarded forwarded,grows.matched matched⟩

theorem Agreed.mono {submission : Nat} {status : UInt8} {rsp : Bytes} {answer : Option (Bytes × Mark)}
    (agreed : Agreed s submission status rsp answer) (grows : Grows s s') : Agreed s' submission status rsp answer := by
  obtain ⟨bytes,m,taken,member,asked,own,⟨hdr,hex,ectx,type,src,seq,encoded⟩,replied⟩ := agreed
  exact ⟨bytes,m,taken,grows.answers member,asked.mono grows,own,⟨hdr,hex,ectx,type,src.trans grows.id.symm,seq,encoded⟩,
    fun ok some => (replied ok some).mono grows⟩

theorem Worth.mono {m : Mark} {hdr : Header} {payload : Bytes} (worth : Worth s m hdr payload) (grows : Grows s s') :
    Worth s' m hdr payload := by
  intro isRsp
  obtain ⟨src,seq,asked,status,hex,body,replied⟩ := worth isRsp
  exact ⟨src.trans grows.id.symm,seq,asked.mono grows,status,hex,body,fun ok some => (replied ok some).mono grows⟩

theorem Truthful.mono {frame : Bytes × Mark} (truthful : Truthful s frame) (grows : Grows s s') : Truthful s' frame := by
  obtain ⟨hdr,payload,ectx,worth,encoded⟩ := truthful
  exact ⟨hdr,payload,ectx,worth.mono grows,encoded⟩

theorem Grows.same (id : s'.node.ctx.id = s.node.ctx.id) (requests : s'.requests = s.requests) (answers : s'.answers = s.answers)
    (forwarded : s'.forwarded = s.forwarded) (matched : s'.matched = s.matched) : Grows s s' :=
  ⟨id,fun _ member => requests ▸ member,fun _ member => answers ▸ member,fun _ member => forwarded ▸ member,fun _ member => matched ▸ member⟩

theorem after_grows (s : Link) (mark : Mark) (n : Engine GateLinkApp) (id : n.ctx.id = s.node.ctx.id) : Grows s (s.after mark n) := by
  refine ⟨id,List.Subset.refl _,List.Subset.refl _,?_,List.Subset.refl _⟩
  unfold Link.after
  dsimp only
  split
  · exact List.Subset.refl _
  · exact List.subset_cons_self _ _

-- Reading a frame back.

theorem readHeader_of_encode {hdr : Header} {payload : Bytes} {ectx : EncodeCtx} {bytes : Bytes} (encoded : encode hdr payload ectx maxFrame = .ok bytes) :
    readHeader bytes = wireHeader hdr := by
  obtain ⟨_,_,tag,_,rfl⟩ := encode_parts _ _ _ _ _ encoded
  exact readHeader_encoded hdr payload tag

theorem isRsp_of_encode {hdr : Header} {payload : Bytes} {ectx : EncodeCtx} {bytes : Bytes} (encoded : encode hdr payload ectx maxFrame = .ok bytes) :
    isRsp bytes = true ↔ hdr.type = .hexRsp := by
  rw [isRsp,readHeader_of_encode encoded,beq_iff_eq]
  exact Iff.rfl

theorem heardFrame_encoded {hdr : Header} {payload : Bytes} {ectx : EncodeCtx} {bytes : Bytes} {f : Frame}
    (encoded : encode hdr payload ectx maxFrame = .ok bytes) (heard : heardFrame listen bytes = some f) :
    f.hdr = wireHeader hdr ∧ f.payload = payload := by
  unfold heardFrame at heard
  split at heard
  · rename_i head headed
    split at heard
    · rename_i other decoded
      cases heard
      obtain ⟨sameHdr,samePayload,_⟩ := decodePayload_cases _ _ _ _ _ _ _ _ _ _ encoded headed decoded
      exact ⟨sameHdr,samePayload⟩
    · cases heard
  · cases heard

theorem mem_outstanding {m : Mark} : m ∈ s.outstanding ↔ (∃ bytes, (bytes,m) ∈ s.sent) ∨
    (∃ bytes, isRsp bytes = true ∧ ((bytes,m) ∈ s.queue ∨ (bytes,m) ∈ s.air)) ∨ s.node.ctx.hexPending.active = true ∧ m = s.holding := by
  unfold Link.outstanding
  cases s.node.ctx.hexPending.active <;> simp [and_comm,or_and_right,exists_or,or_assoc]

-- The node moves without a HEX_REQ, and says nothing that was not outstanding already.

theorem after_queue (s : Link) (mark : Mark) (n : Engine GateLinkApp) (frames : List Bytes) (outbox : n.outbox = s.node.outbox ++ frames) :
    (s.after mark n).queue = s.queue ++ frames.map fun bytes => (bytes,mark) := by
  simp only [Link.after,outbox,List.drop_left']

theorem after_queued (honest : Honest s) (mark : Mark) (n : Engine GateLinkApp) (frames : List Bytes) (outbox : n.outbox = s.node.outbox ++ frames) :
    (s.after mark n).queue.map Prod.fst = n.outbox := by
  rw [after_queue s mark n frames outbox,List.map_append,honest.queued,outbox,List.map_map]
  simp [Function.comp_def]

theorem after_kept (s : Link) (mark : Mark) (n : Engine GateLinkApp) (same : n.app.forwards = s.node.app.forwards) :
    (s.after mark n).holding = s.holding ∧ (s.after mark n).forwarded = s.forwarded := ⟨if_pos same,if_pos same⟩

theorem closing_worth {hdr : Header} {payload : Bytes} (honest : Honest s) (concludes : Concludes s.matched s.node hdr payload) :
    Worth s s.holding hdr payload := by
  intro isRsp
  obtain ⟨active,src,seq,status,hex,body,taken⟩ := concludes isRsp
  obtain ⟨asked,same,forwarded⟩ := honest.held active
  exact ⟨src,seq.trans same.symm,asked,status,hex,body,fun ok some => ⟨_,forwarded,taken ok some⟩⟩

theorem closing_honest {n : Engine GateLinkApp} (honest : Honest s) (closing : Closing s.matched s.node n) : Honest (s.after s.holding n) := by
  have grows := after_grows s s.holding n closing.id
  obtain ⟨frames,outbox,each⟩ := closing.outbox
  refine ⟨honest.sent,honest.flying,after_queued honest _ n frames outbox,?_,closing.slots,?_,?_⟩
  · intro active
    change n.ctx.hexPending.active = true at active
    rcases closing.transaction with kept | closed
    · rw [kept] at active
      obtain ⟨asked,seq,forwarded⟩ := honest.held active
      obtain ⟨holding,listed⟩ := after_kept s s.holding n closing.forwards
      rw [holding,listed]
      refine ⟨asked.mono grows,seq.trans (congrArg HexPending.seq kept.symm),?_⟩
      change (n.app.forwards,s.holding) ∈ s.forwarded
      rw [closing.forwards]
      exact forwarded
    · rw [closed] at active
      cases active
  · rw [after_queue s s.holding n frames outbox]
    intro frame member
    rcases List.mem_append.mp member with old | new
    · exact (honest.queue frame old).mono grows
    · obtain ⟨bytes,inside,rfl⟩ := List.mem_map.mp new
      obtain ⟨hdr,payload,ectx,concludes,encoded⟩ := each bytes inside
      exact ⟨hdr,payload,ectx,(closing_worth honest concludes).mono grows,encoded⟩
  · intro frame member
    obtain ⟨truthful,listed⟩ := honest.air frame member
    exact ⟨truthful.mono grows,listed⟩

theorem closing_outstanding {n : Engine GateLinkApp} (closing : Closing s.matched s.node n) :
    (s.after s.holding n).outstanding ⊆ s.outstanding := by
  obtain ⟨frames,outbox,each⟩ := closing.outbox
  intro m member
  rcases mem_outstanding.mp member with sent | ⟨bytes,rsp,inQueue | inAir⟩ | ⟨active,rfl⟩
  · exact mem_outstanding.mpr (.inl sent)
  · rw [after_queue s s.holding n frames outbox] at inQueue
    rcases List.mem_append.mp inQueue with old | new
    · exact mem_outstanding.mpr (.inr (.inl ⟨bytes,rsp,.inl old⟩))
    · obtain ⟨other,inside,same⟩ := List.mem_map.mp new
      cases same
      obtain ⟨hdr,payload,ectx,concludes,encoded⟩ := each bytes inside
      exact mem_outstanding.mpr (.inr (.inr ⟨(concludes ((isRsp_of_encode encoded).mp rsp)).1,rfl⟩))
  · exact mem_outstanding.mpr (.inr (.inl ⟨bytes,rsp,.inr inAir⟩))
  · change n.ctx.hexPending.active = true at active
    rcases closing.transaction with kept | closed
    · rw [kept] at active
      simp only [Link.after,closing.forwards,if_true]
      exact mem_outstanding.mpr (.inr (.inr ⟨active,rfl⟩))
    · rw [closed] at active
      cases active

-- The node is given a HEX_REQ.

theorem delivered_asked (honest : Honest s) {bytes : Bytes} {mark : Mark} (member : (bytes,mark) ∈ s.sent)
    (addressed : (readHeader bytes).dst = s.node.ctx.id ∨ (readHeader bytes).dst = nodeBroadcast) :
    Asked s mark ∧ (readHeader bytes).seq = mark.seq := by
  obtain ⟨known,listed,ctx,ver,payload,ectx,encoded⟩ := honest.sent _ member
  rw [readHeader_of_encode encoded] at addressed ⊢
  refine ⟨⟨?_,bytes,listed⟩,rfl⟩
  rcases addressed with here | wide
  · exact here
  · change mark.dst = nodeBroadcast at wide
    dsimp only at known
    rw [wide] at known
    exact absurd known (by decide)

theorem refused_honest {bytes : Bytes} {mark : Mark} {n : Engine GateLinkApp} (honest : Honest s) (member : (bytes,mark) ∈ s.sent)
    (calm : Calm mac (gateLinkOps payloads) (Refusal s.node.ctx.id (readHeader bytes)) s.node n) : Honest (s.after mark n) := by
  have grows := after_grows s mark n calm.id
  have same := appRuns_slots payloads calm.app
  obtain ⟨frames,outbox,each⟩ := calm.outbox
  obtain ⟨holding,listed⟩ := after_kept s mark n same.forwards
  refine ⟨honest.sent,honest.flying,after_queued honest _ n frames outbox,?_,same.slots honest.slots,?_,?_⟩
  · intro active
    change n.ctx.hexPending.active = true at active
    rw [calm.transaction] at active
    obtain ⟨asked,seq,forwarded⟩ := honest.held active
    rw [holding,listed]
    refine ⟨asked.mono grows,seq.trans (congrArg HexPending.seq calm.transaction.symm),?_⟩
    change (n.app.forwards,s.holding) ∈ s.forwarded
    rw [same.forwards]
    exact forwarded
  · rw [after_queue s mark n frames outbox]
    intro frame inside
    rcases List.mem_append.mp inside with old | new
    · exact (honest.queue frame old).mono grows
    · obtain ⟨other,made,rfl⟩ := List.mem_map.mp new
      obtain ⟨hdr,payload,ectx,refusal,encoded⟩ := each other made
      refine ⟨hdr,payload,ectx,fun rsp => ?_,encoded⟩
      obtain ⟨_,addressed,src,seq,status,body⟩ := refusal rsp
      obtain ⟨asked,named⟩ := delivered_asked honest member addressed
      exact ⟨src.trans grows.id.symm,seq.trans named,asked.mono grows,status,[],body,fun _ some => absurd rfl some⟩
  · intro frame inside
    obtain ⟨truthful,listed⟩ := honest.air frame inside
    exact ⟨truthful.mono grows,listed⟩

theorem forwarded_honest {bytes : Bytes} {mark : Mark} {n : Engine GateLinkApp} (honest : Honest s) (member : (bytes,mark) ∈ s.sent)
    (fresh : s.node.app.hexToken + 1 ∉ s.node.app.tokens)
    (addressed : (readHeader bytes).dst = s.node.ctx.id ∨ (readHeader bytes).dst = nodeBroadcast)
    (handed : Forwarded mac (gateLinkOps payloads) (readHeader bytes) s.node n) : Honest (s.after mark n) ∧ (s.after mark n).holding = mark := by
  have grows := after_grows s mark n handed.id
  obtain ⟨asked,named⟩ := delivered_asked honest member addressed
  obtain ⟨dueMs,transaction⟩ := handed.transaction
  obtain ⟨a,c,hex,nowMs,runs,app⟩ := handed.app
  obtain ⟨frames,outbox,each⟩ := handed.outbox
  have same := appRuns_slots payloads runs
  obtain ⟨_,counted,_⟩ := hexForward_cases a hex
  change n.app = (a.hexForward hex).2 at app
  have moved : n.app.forwards ≠ s.node.app.forwards := by
    rw [app,counted,same.forwards]
    omega
  have holding : (s.after mark n).holding = mark := if_neg moved
  have listed : (s.after mark n).forwarded = (n.app.forwards,mark) :: s.forwarded := if_neg moved
  refine ⟨⟨honest.sent,honest.flying,after_queued honest _ n frames outbox,?_,?_,?_,?_⟩,holding⟩
  · intro _
    rw [holding,listed]
    refine ⟨asked.mono grows,?_,List.mem_cons_self⟩
    change mark.seq = n.ctx.hexPending.seq
    rw [transaction]
    exact named.symm
  · change Slots s.matched n.app
    rw [app]
    exact hexForward_slots (same.slots honest.slots) hex (by rw [same.token,same.tokens]; exact fresh)
  · rw [after_queue s mark n frames outbox]
    intro frame inside
    rcases List.mem_append.mp inside with old | new
    · exact (honest.queue frame old).mono grows
    · obtain ⟨other,made,rfl⟩ := List.mem_map.mp new
      obtain ⟨hdr,payload,ectx,none,encoded⟩ := each other made
      exact ⟨hdr,payload,ectx,fun rsp => absurd rsp none,encoded⟩
  · intro frame inside
    obtain ⟨truthful,listed⟩ := honest.air frame inside
    exact ⟨truthful.mono grows,listed⟩

-- A frame the node adds is for the HEX_REQ it was given, and so is what it holds from then on.
theorem deliver_outstanding {bytes : Bytes} {mark : Mark} {n : Engine GateLinkApp} {frames : List Bytes} (member : (bytes,mark) ∈ s.sent)
    (outbox : n.outbox = s.node.outbox ++ frames)
    (held : n.ctx.hexPending.active = true → (s.after mark n).holding = mark ∨
      s.node.ctx.hexPending.active = true ∧ (s.after mark n).holding = s.holding) : (s.after mark n).outstanding ⊆ s.outstanding := by
  have given : mark ∈ s.outstanding := mem_outstanding.mpr (.inl ⟨bytes,member⟩)
  intro m inside
  rcases mem_outstanding.mp inside with sent | ⟨other,rsp,inQueue | inAir⟩ | ⟨active,rfl⟩
  · exact mem_outstanding.mpr (.inl sent)
  · rw [after_queue s mark n frames outbox] at inQueue
    rcases List.mem_append.mp inQueue with old | new
    · exact mem_outstanding.mpr (.inr (.inl ⟨other,rsp,.inl old⟩))
    · obtain ⟨_,_,same⟩ := List.mem_map.mp new
      cases same
      exact given
  · exact mem_outstanding.mpr (.inr (.inl ⟨other,rsp,.inr inAir⟩))
  · rcases held active with new | ⟨was,old⟩
    · rw [new]
      exact given
    · rw [old]
      exact mem_outstanding.mpr (.inr (.inr ⟨was,rfl⟩))

theorem receive_honest (mac : Mac) (payloads : Payloads) (honest : Honest s) {bytes : Bytes} {mark : Mark} (member : (bytes,mark) ∈ s.sent)
    (fresh : s.node.app.hexToken + 1 ∉ s.node.app.tokens) (random : RandomFn) (nowMs : UInt32) :
    let s' := s.after mark (s.node.receive mac (gateLinkOps payloads) bytes random nowMs)
    Honest s' ∧ Grows s s' ∧ s'.outstanding ⊆ s.outstanding := by
  rcases receive_hexMoves mac (gateLinkOps payloads) (fun a _ hex _ => hexForward_waits a hex) s.node bytes random nowMs with
    calm | ⟨_,addressed,handed⟩
  · obtain ⟨frames,outbox,_⟩ := calm.outbox
    refine ⟨refused_honest honest member calm,after_grows s mark _ calm.id,deliver_outstanding member outbox fun active => .inr ⟨?_,?_⟩⟩
    · rw [← calm.transaction]
      exact active
    · exact (after_kept s mark _ (appRuns_slots payloads calm.app).forwards).1
  · obtain ⟨frames,outbox,_⟩ := handed.outbox
    obtain ⟨valid,holding⟩ := forwarded_honest honest member fresh addressed handed
    exact ⟨valid,after_grows s mark _ handed.id,deliver_outstanding member outbox fun _ => .inl holding⟩

-- Any other frame draws no HEX_RSP.
theorem other_closing (honest : Honest s) (bytes : Bytes) (random : RandomFn) (nowMs : UInt32) (other : (readHeader bytes).type ≠ .hexReq) :
    Closing s.matched s.node (s.node.receive mac (gateLinkOps payloads) bytes random nowMs) := by
  rcases receive_hexMoves mac (gateLinkOps payloads) (fun a _ hex _ => hexForward_waits a hex) s.node bytes random nowMs with
    calm | ⟨typed,_⟩
  · exact calm_closing (calm.weaken fun hdr payload refusal rsp => other (refusal rsp).1) honest.slots
  · exact absurd typed other

theorem own_closing (n : Engine GateLinkApp) (input : ChargerWrites.Input) (own : isOwn input = true) {matched : List (Nat × Bytes)}
    (slots : Slots matched n.app) : Closing matched n (ChargerWrites.step mac payloads {engine := n} input).engine := by
  cases input with
  | engine input =>
      cases input with
      | receive buf random nowMs => cases own
      | completeHex status hex => cases own
      | transmit => cases own
      | tick nowMs => exact tick_closing n nowMs slots
      | finishCommand nowMs => exact calm_closing (finishCommand_calm mac (gateLinkOps payloads) n nowMs) slots
      | finishCommandWith nowMs result =>
          let told : Engine GateLinkApp := {n with ctx := {n.ctx with pending := {n.ctx.pending with result := result,detail := 0}}}
          have kept : Closing matched n told := Closing.quiet rfl rfl rfl slots rfl
          exact kept.trans (calm_closing (finishCommand_calm mac (gateLinkOps payloads) told nowMs) kept.slots)
      | reset random => exact ⟨rfl,.inr rfl,rfl,slots,[],by simp [ChargerWrites.step,Authenticated.step,Authenticated.engineStep],by simp⟩
      | roll random => exact Closing.quiet rfl rfl rfl slots rfl
      | announceBoot cause nowMs => exact calm_closing (announceBoot_calm mac (gateLinkOps payloads) n cause nowMs) slots
      | notePhyRevert cause => exact Closing.quiet rfl rfl rfl slots rfl
      | tune tunings => exact calm_closing (tune_calm mac (gateLinkOps payloads) n tunings) slots
      | board phy => exact Closing.quiet rfl rfl rfl slots rfl
  | reboot random phy config => cases own
  | vedLine line => cases own
  | pollHex => exact pollHex_closing n slots
  | vedParams hexTimeoutMs => exact Closing.quiet rfl rfl rfl (vedParams_slots slots hexTimeoutMs) rfl
  | vedStart nowMs took =>
      have started : Closing matched n {n with app := n.app.vedStart nowMs took} := by
        refine Closing.quiet rfl rfl ?_ (vedStart_slots slots nowMs took) rfl
        dsimp only [GateLinkApp.vedStart]
        split
        · rfl
        · split <;> rfl
      exact started
  | vedTick nowMs took => exact Closing.quiet rfl rfl rfl (vedTick_slots slots nowMs took) rfl
  | vedPublish => exact Closing.quiet rfl rfl rfl (vedPublish_slots slots) rfl
  | relaysTaken => exact Closing.quiet rfl rfl rfl ⟨slots.queued,slots.held,slots.finished,slots.published⟩ rfl
  | withholdNextAck => exact Closing.quiet rfl rfl rfl ⟨slots.queued,slots.held,slots.finished,slots.published⟩ rfl
  | cardServiced config => exact Closing.quiet rfl rfl rfl ⟨slots.queued,slots.held,slots.finished,slots.published⟩ rfl

-- The proxy as far as the answer to the exchange in flight goes.
structure SameExchange (p p' : HexProxy) : Prop where
  phase : p'.phase = p.phase
  req : p'.req = p.req
  seq : p'.seq = p.seq
  outcome : p'.outcome = p.outcome
  status : p'.status = p.status
  rsp : p'.rsp = p.rsp

theorem SameExchange.refl (p : HexProxy) : SameExchange p p := ⟨rfl,rfl,rfl,rfl,rfl,rfl⟩

-- Nothing the proxy is waiting for moves.
theorem apart_fair (fair : Fair s) (proxy : SameExchange s.proxy s'.proxy) (given : s'.given = s.given) (answer : s'.answer = s.answer)
    (resolved : s'.resolved = s.resolved) (grows : Grows s s') (less : s'.outstanding ⊆ s.outstanding) : Fair s' := by
  have current : s'.current = s.current := by rw [Link.current,given]; rfl
  refine ⟨?_,?_,?_⟩
  · rw [InFlight,proxy.phase,proxy.req,proxy.seq,current]
    exact fun flying m member => fair.alone flying m (less member)
  · rw [proxy.phase,proxy.outcome,proxy.status,proxy.rsp,answer,current]
    exact fun finished answered => (fair.answered finished answered).mono grows
  · rw [resolved]
    exact fun r member answered => (fair.resolved r member answered).mono grows

-- Nor does the node, nor anything on its way.
theorem bridge_honest (honest : Honest s) (p : HexProxy) (registry : Registry) (given : Nat) (answer : Option (Bytes × Mark))
    (resolved : List Resolution) (flying : p.busy = true → registered p.req.dst = true) :
    Honest {s with proxy := p,registry := registry,given := given,answer := answer,resolved := resolved} :=
  ⟨honest.sent,flying,honest.queued,honest.held,honest.slots,honest.queue,honest.air⟩

theorem submit_valid (honest : Honest s) (fair : Fair s) (req : HexRequest) (ctx : CtxId) (nowMs : UInt32)
    (numbered : Numbered listen s (.submit req ctx nowMs)) : Honest (s.submit req ctx nowMs) ∧ Fair (s.submit req ctx nowMs) := by
  have resolved : ∀ r ∈ s.resolved, r.outcome = .answered → Agreed s r.submission r.status r.rsp r.answer := fair.resolved
  unfold Link.submit
  split
  · exact ⟨honest,fair⟩
  · rename_i free
    simp only [Bool.or_eq_true,Bool.not_eq_true',not_or,Bool.not_eq_true,Bool.not_eq_false] at free
    obtain ⟨free,known⟩ := free
    have idle : s.proxy.phase = .idle := by simpa [HexProxy.busy] using free
    have number : ∀ m ∈ s.outstanding, m.dst = req.dst → m.seq ≠ s.numberFor req := numbered
    unfold Link.numberFor at number
    split
    · rename_i write
      rw [if_pos write] at number
      simp only [Registry.takeCmdSeq,known,HexProxy.submit,idle,Bool.not_true,Bool.false_eq_true,if_false,ne_eq,not_true_eq_false,if_true]
      refine ⟨bridge_honest honest _ _ _ _ _ fun _ => known,?_,fun finished => (by cases finished),fun r member answered => resolved r member answered⟩
      exact fun _ m member here same => absurd same (number m member here)
    · rename_i read
      rw [if_neg read] at number
      simp only [HexProxy.submit,idle,ne_eq,not_true_eq_false,if_false,Bool.false_eq_true]
      refine ⟨bridge_honest honest _ _ _ _ _ fun _ => known,?_,fun finished => (by cases finished),fun r member answered => resolved r member answered⟩
      exact fun _ m member here same => absurd same (number m member here)

-- Everything one turn can do.
theorem turn_cases (mac : Mac) (keys : NodeId → NodeKey) (s : Link) (nowMs : UInt32) (armed queued : Bool) :
    (∃ p registry, (p = s.proxy ∨ InFlight s ∧ ∃ attempt, p = {s.proxy with attempt := attempt,phase := .sendDue}) ∧
      s.turn mac keys nowMs armed queued = {s with proxy := p,registry := registry}) ∨
    (∃ p registry bytes ctx ver payload ectx, InFlight s ∧ p.phase = .awaiting ∧ p.req = s.proxy.req ∧ p.seq = s.proxy.seq ∧
      encode (hexHeader s.proxy.req.dst ctx s.proxy.seq ver) payload ectx maxFrame = .ok bytes ∧
      s.turn mac keys nowMs armed queued = {s with
        proxy := p
        registry := registry
        sent := s.sent ++ [(bytes,⟨s.current,s.proxy.req.dst,s.proxy.seq⟩)]
        requests := (bytes,⟨s.current,s.proxy.req.dst,s.proxy.seq⟩) :: s.requests}) ∨
    (∃ p registry outcome, p.phase = .idle ∧ (outcome = .answered → s.proxy.phase = .resolved ∧ s.proxy.outcome = .answered) ∧
      s.turn mac keys nowMs armed queued = {s with
        proxy := p
        registry := registry
        resolved := ⟨s.current,outcome,s.proxy.status,s.proxy.rsp,s.answer⟩ :: s.resolved}) := by
  unfold Link.turn
  rcases s.proxy.next_cases nowMs armed with nothing | ⟨attempt,due,sends⟩ | ⟨outcome,unanswered,_,ended⟩ | ⟨finished,ended⟩
  · rw [nothing]
    exact .inl ⟨_,_,.inl rfl,rfl⟩
  · rw [sends]
    have flying : InFlight s := by
      rcases due with ⟨sendDue,_⟩ | ⟨awaiting,_⟩
      · exact .inl sendDue
      · exact .inr awaiting
    dsimp only [HexProxy.sendStep]
    split
    · exact .inl ⟨_,_,.inr ⟨flying,attempt,rfl⟩,rfl⟩
    · rename_i bytes built
      split
      · obtain ⟨payload,encoded⟩ := buildHexReqFrame_encoded built
        let awaiting : HexProxy := {s.proxy with attempt := attempt,phase := .awaiting,windowOpenedMs := nowMs,ctxAdopted := false}
        exact .inr (.inl ⟨awaiting,_,bytes,_,_,payload,_,flying,rfl,rfl,rfl,encoded,rfl⟩)
      · exact .inl ⟨_,_,.inr ⟨flying,attempt,rfl⟩,rfl⟩
  · rw [ended]
    exact .inr (.inr ⟨_,_,outcome,rfl,fun same => absurd same unanswered,rfl⟩)
  · rw [ended]
    exact .inr (.inr ⟨_,_,s.proxy.outcome,rfl,fun same => ⟨finished,same⟩,rfl⟩)

theorem inFlight_busy (flying : InFlight s) : s.proxy.busy = true := by
  rcases flying with sendDue | awaiting
  · simp [HexProxy.busy,sendDue]
  · simp [HexProxy.busy,awaiting]

theorem send_valid (honest : Honest s) (fair : Fair s) (flying : InFlight s) (p : HexProxy) (registry : Registry) (awaiting : p.phase = .awaiting)
    (req : p.req = s.proxy.req) (seq : p.seq = s.proxy.seq) {bytes : Bytes} {ctx : CtxId} {ver : UInt8} {payload : Bytes} {ectx : EncodeCtx}
    (encoded : encode (hexHeader s.proxy.req.dst ctx s.proxy.seq ver) payload ectx maxFrame = .ok bytes)
    (moved : s' = {s with
      proxy := p
      registry := registry
      sent := s.sent ++ [(bytes,⟨s.current,s.proxy.req.dst,s.proxy.seq⟩)]
      requests := (bytes,⟨s.current,s.proxy.req.dst,s.proxy.seq⟩) :: s.requests}) : Honest s' ∧ Fair s' := by
  have known := honest.flying (inFlight_busy flying)
  have grows : Grows s s' := by
    subst moved
    exact ⟨rfl,List.subset_cons_self _ _,List.Subset.refl _,List.Subset.refl _,List.Subset.refl _⟩
  subst moved
  refine ⟨⟨?_,?_,honest.queued,?_,honest.slots,?_,?_⟩,?_,?_,?_⟩
  · intro frame member
    rcases List.mem_append.mp member with old | new
    · obtain ⟨there,listed,made⟩ := honest.sent frame old
      exact ⟨there,List.mem_cons_of_mem _ listed,made⟩
    · obtain rfl := List.mem_singleton.mp new
      exact ⟨known,List.mem_cons_self,ctx,ver,payload,ectx,encoded⟩
  · exact fun _ => req.symm ▸ known
  · intro active
    obtain ⟨asked,named,listed⟩ := honest.held active
    exact ⟨asked.mono grows,named,listed⟩
  · exact fun frame member => (honest.queue frame member).mono grows
  · exact fun frame member => ⟨(honest.air frame member).1.mono grows,(honest.air frame member).2⟩
  · intro _ m member here same
    rcases mem_outstanding.mp member with ⟨other,inSent⟩ | ⟨other,rsp,placed⟩ | ⟨active,held⟩
    · rcases List.mem_append.mp inSent with old | new
      · exact fair.alone flying m (mem_outstanding.mpr (.inl ⟨other,old⟩)) (here.trans (congrArg HexRequest.dst req)) (same.trans seq)
      · cases List.mem_singleton.mp new
        rfl
    · exact fair.alone flying m (mem_outstanding.mpr (.inr (.inl ⟨other,rsp,placed⟩))) (here.trans (congrArg HexRequest.dst req)) (same.trans seq)
    · exact fair.alone flying m (mem_outstanding.mpr (.inr (.inr ⟨active,held⟩))) (here.trans (congrArg HexRequest.dst req)) (same.trans seq)
  · intro finished
    cases awaiting.symm.trans finished
  · exact fun r member answered => (fair.resolved r member answered).mono grows

theorem turn_valid (honest : Honest s) (fair : Fair s) (nowMs : UInt32) (armed queued : Bool) :
    Honest (s.turn mac keys nowMs armed queued) ∧ Fair (s.turn mac keys nowMs armed queued) := by
  rcases turn_cases mac keys s nowMs armed queued with ⟨p,registry,still,moved⟩ |
    ⟨p,registry,bytes,ctx,ver,payload,ectx,flying,awaiting,req,seq,encoded,moved⟩ | ⟨p,registry,outcome,idle,meant,moved⟩
  · rw [moved]
    rcases still with rfl | ⟨flying,attempt,rfl⟩
    · exact ⟨bridge_honest honest _ _ _ _ _ honest.flying,
        apart_fair fair (SameExchange.refl _) rfl rfl rfl (Grows.same rfl rfl rfl rfl rfl) (List.Subset.refl _)⟩
    · refine ⟨bridge_honest honest _ _ _ _ _ fun _ => honest.flying (inFlight_busy flying),fun _ => fair.alone flying,?_,fair.resolved⟩
      intro finished
      cases finished
  · exact send_valid honest fair flying p registry awaiting req seq encoded moved
  · rw [moved]
    refine ⟨bridge_honest honest _ _ _ _ _ fun busy => ?_,?_,?_,?_⟩
    · simp [HexProxy.busy,idle] at busy
    · rintro (sendDue | awaiting)
      · cases idle.symm.trans sendDue
      · cases idle.symm.trans awaiting
    · intro finished
      cases idle.symm.trans finished
    · intro r member answered
      rcases List.mem_cons.mp member with rfl | old
      · obtain ⟨finished,same⟩ := meant answered
        exact fair.answered finished same
      · exact fair.resolved r old answered

-- An outcome of the proxy's own.
theorem settled_valid (honest : Honest s) (fair : Fair s) (awaiting : s.proxy.phase = .awaiting) (p : HexProxy) (registry : Registry)
    (req : p.req = s.proxy.req) (finished : p.phase = .resolved) (unanswered : p.outcome ≠ .answered) :
    Honest {s with proxy := p,registry := registry} ∧ Fair {s with proxy := p,registry := registry} := by
  have known := honest.flying (inFlight_busy (.inr awaiting))
  refine ⟨bridge_honest honest _ _ _ _ _ fun _ => req.symm ▸ known,?_,fun _ answered => absurd answered unanswered,fair.resolved⟩
  rintro (sendDue | again)
  · cases finished.symm.trans sendDue
  · cases finished.symm.trans again

theorem registry_valid (honest : Honest s) (fair : Fair s) (registry : Registry) :
    Honest {s with registry := registry} ∧ Fair {s with registry := registry} :=
  ⟨bridge_honest honest _ registry _ _ _ honest.flying,
    apart_fair fair (SameExchange.refl _) rfl rfl rfl (Grows.same rfl rfl rfl rfl rfl) (List.Subset.refl _)⟩

theorem onAck_valid (honest : Honest s) (fair : Fair s) (f : Frame) (nowMs : UInt32) (rollClaims : Bool) (typed : f.hdr.type = .commandAck)
    (numbered : rollClaims = false → Resyncs s.proxy f → ∀ m ∈ s.outstanding, m.dst = s.proxy.req.dst → m.seq = 1 → m.submission = s.current) :
    Honest (s.onAck f nowMs rollClaims) ∧ Fair (s.onAck f nowMs rollClaims) := by
  unfold Link.onAck
  split
  · exact ⟨honest,fair⟩
  · rename_i ack parsed
    cases claimed : rollClaims with
    | true => exact ⟨honest,fair⟩
    | false =>
        simp only [Bool.false_eq_true,if_false]
        rcases s.proxy.onAck_cases f.hdr.src ack f.hdr.ctxId nowMs with ⟨_,same⟩ | ⟨mine,_,_,_,moved⟩ | ⟨mine,rejected,fresh,again,moved⟩ |
          ⟨mine,_,outcome,unanswered,moved⟩
        · rw [same]
          exact ⟨honest,fair⟩
        · rw [moved]
          exact settled_valid honest fair mine.1 _ _ rfl rfl (by simp)
        · rw [moved]
          have alone := numbered claimed ⟨typed,fresh,again,ack,parsed,mine,rejected⟩
          refine ⟨bridge_honest honest _ _ _ _ _ fun _ => honest.flying (inFlight_busy (.inr mine.1)),fun _ => alone,?_,fair.resolved⟩
          intro finished
          cases finished
        · rw [moved]
          exact settled_valid honest fair mine.1 _ _ rfl rfl unanswered

-- The answer taken is the node's, and the only HEX_REQ it can have been made for is of the submission in flight.
theorem taken_agreed (honest : Honest s) (fair : Fair s) {frame : Bytes × Mark} {f : Frame} {rsp : HexRsp} (member : frame ∈ s.air)
    (heard : heardFrame listen frame.1 = some f) (typed : f.hdr.type = .hexRsp) (parsed : HexRsp.deserialize f.payload = some rsp)
    (awaiting : s.proxy.phase = .awaiting) (src : f.hdr.src = s.proxy.req.dst) (seq : f.hdr.seq = s.proxy.seq) {answer : Bytes}
    (kept : answer = rsp.hex ∨ answer = []) : Agreed s s.current rsp.status answer (some frame) := by
  obtain ⟨⟨hdr,payload,ectx,worth,encoded⟩,listed⟩ := honest.air frame member
  obtain ⟨sameHdr,rfl⟩ := heardFrame_encoded encoded heard
  rw [sameHdr] at typed src seq
  obtain ⟨own,named,asked,status,hex,body,replied⟩ := worth typed
  rw [body] at parsed
  obtain rfl := HexRsp.eq_of_deserialize parsed
  have outstanding : frame.2 ∈ s.outstanding :=
    mem_outstanding.mpr (.inr (.inl ⟨frame.1,(isRsp_of_encode encoded).mpr typed,.inr member⟩))
  have here : frame.2.dst = s.proxy.req.dst := asked.1.trans (own.symm.trans src)
  have current := fair.alone (.inr awaiting) frame.2 outstanding here (named.symm.trans seq)
  refine ⟨frame.1,frame.2,rfl,listed,asked,current,⟨hdr,hex,ectx,typed,own,named,body ▸ encoded⟩,?_⟩
  intro ok some
  rcases kept with rfl | rfl
  · exact replied (HexStatus.code_injective _ _ ok) some
  · exact absurd rfl some

theorem onRsp_valid (honest : Honest s) (fair : Fair s) {frame : Bytes × Mark} {f : Frame} (member : frame ∈ s.air)
    (heard : heardFrame listen frame.1 = some f) (typed : f.hdr.type = .hexRsp) : Honest (s.onRsp frame f) ∧ Fair (s.onRsp frame f) := by
  unfold Link.onRsp
  split
  · exact ⟨honest,fair⟩
  · rename_i rsp parsed
    rcases s.proxy.onRsp_cases f.hdr.src f.hdr.seq rsp with same | ⟨awaiting,src,seq,answer,kept,moved⟩
    · rw [same]
      exact ⟨honest,fair⟩
    · rw [moved]
      have agreed := taken_agreed honest fair member heard typed parsed awaiting src seq kept
      refine ⟨bridge_honest honest _ _ _ _ _ fun _ => honest.flying (inFlight_busy (.inr awaiting)),?_,fun _ _ => agreed,fair.resolved⟩
      rintro (sendDue | again)
      · cases sendDue
      · cases again

theorem hear_valid (honest : Honest s) (fair : Fair s) {frame : Bytes × Mark} (member : frame ∈ s.air) (nowMs : UInt32) (rollClaims : Bool)
    (numbered : rollClaims = false → ∀ f ∈ heardFrame listen frame.1, Resyncs s.proxy f →
      ∀ m ∈ s.outstanding, m.dst = s.proxy.req.dst → m.seq = 1 → m.submission = s.current) :
    Honest (s.hear listen frame nowMs rollClaims) ∧ Fair (s.hear listen frame nowMs rollClaims) := by
  unfold Link.hear
  split
  · exact ⟨honest,fair⟩
  · rename_i f heard
    obtain ⟨honest,fair⟩ := registry_valid honest fair (s.registry.observe f.hdr nowMs).2
    dsimp only
    split
    · rename_i typed
      exact onAck_valid honest fair f nowMs rollClaims typed fun unclaimed => numbered unclaimed f heard
    · rename_i typed
      exact onRsp_valid honest fair member heard typed
    · exact ⟨honest,fair⟩

theorem closing_valid {n : Engine GateLinkApp} (honest : Honest s) (fair : Fair s) (closing : Closing s.matched s.node n) :
    Honest (s.after s.holding n) ∧ Fair (s.after s.holding n) :=
  ⟨closing_honest honest closing,apart_fair fair (SameExchange.refl _) rfl rfl rfl (after_grows s s.holding n closing.id) (closing_outstanding closing)⟩

theorem vedLine_valid (honest : Honest s) (fair : Fair s) (line : Bytes) : Honest (s.vedLine line) ∧ Fair (s.vedLine line) := by
  have grows : Grows s (s.vedLine line) := by
    refine ⟨rfl,List.Subset.refl _,List.Subset.refl _,List.Subset.refl _,?_⟩
    dsimp only [Link.vedLine]
    split
    · exact List.subset_cons_self _ _
    · exact List.Subset.refl _
  refine ⟨⟨honest.sent,honest.flying,honest.queued,?_,vedLine_slots honest.slots line,?_,?_⟩,
    apart_fair fair (SameExchange.refl _) rfl rfl rfl grows (List.Subset.refl _)⟩
  · intro active
    obtain ⟨asked,named,listed⟩ := honest.held active
    exact ⟨asked.mono grows,named,listed⟩
  · exact fun frame member => (honest.queue frame member).mono grows
  · exact fun frame member => ⟨(honest.air frame member).1.mono grows,(honest.air frame member).2⟩

-- A reboot loses what the node had not yet transmitted and the HEX_REQ it was serving.
theorem reboot_valid (honest : Honest s) (fair : Fair s) (random : RandomFn) (phy : PhyTrial) (config : Option GateLinkConfig) :
    Honest (step mac payloads keys listen s (.reboot random phy config)) ∧ Fair (step mac payloads keys listen s (.reboot random phy config)) := by
  have grows : Grows s (step mac payloads keys listen s (.reboot random phy config)) := Grows.same rfl rfl rfl rfl rfl
  refine ⟨⟨honest.sent,honest.flying,rfl,(fun active => by cases active),freshSlots config _ _,(fun frame none => by cases none),?_⟩,
    apart_fair fair (SameExchange.refl _) rfl rfl rfl grows ?_⟩
  · exact fun frame member => ⟨(honest.air frame member).1.mono grows,(honest.air frame member).2⟩
  · intro m member
    rcases mem_outstanding.mp member with sent | ⟨bytes,rsp,inQueue | inAir⟩ | ⟨active,_⟩
    · exact mem_outstanding.mpr (.inl sent)
    · cases inQueue
    · exact mem_outstanding.mpr (.inr (.inl ⟨bytes,rsp,.inr inAir⟩))
    · cases active

theorem transmit_valid (honest : Honest s) (fair : Fair s) :
    Honest (step mac payloads keys listen s .transmit) ∧ Fair (step mac payloads keys listen s .transmit) := by
  have grows : Grows s (step mac payloads keys listen s .transmit) :=
    ⟨rfl,List.Subset.refl _,List.subset_append_right _ _,List.Subset.refl _,List.Subset.refl _⟩
  refine ⟨⟨honest.sent,honest.flying,?_,honest.held,honest.slots,?_,?_⟩,apart_fair fair (SameExchange.refl _) rfl rfl rfl grows ?_⟩
  · change (s.queue.drop 1).map Prod.fst = s.node.outbox.drop 1
    rw [List.map_drop,honest.queued]
  · exact fun frame member => (honest.queue frame (List.mem_of_mem_drop member)).mono grows
  · intro frame member
    rcases List.mem_append.mp member with old | new
    · exact ⟨(honest.air frame old).1.mono grows,List.mem_append_right _ (honest.air frame old).2⟩
    · exact ⟨(honest.queue frame (List.mem_of_mem_take new)).mono grows,List.mem_append_left _ new⟩
  · intro m member
    rcases mem_outstanding.mp member with sent | ⟨bytes,rsp,inQueue | inAir⟩ | held
    · exact mem_outstanding.mpr (.inl sent)
    · exact mem_outstanding.mpr (.inr (.inl ⟨bytes,rsp,.inl (List.mem_of_mem_drop inQueue)⟩))
    · rcases List.mem_append.mp inAir with old | new
      · exact mem_outstanding.mpr (.inr (.inl ⟨bytes,rsp,.inr old⟩))
      · exact mem_outstanding.mpr (.inr (.inl ⟨bytes,rsp,.inl (List.mem_of_mem_take new)⟩))
    · exact mem_outstanding.mpr (.inr (.inr held))

theorem lose_valid (honest : Honest s) (fair : Fair s) (i : Nat) :
    Honest {s with sent := s.sent.eraseIdx i} ∧ Fair {s with sent := s.sent.eraseIdx i} := by
  have fewer : s.sent.eraseIdx i ⊆ s.sent := List.eraseIdx_subset
  refine ⟨⟨fun frame member => honest.sent frame (fewer member),honest.flying,honest.queued,honest.held,honest.slots,honest.queue,honest.air⟩,
    apart_fair fair (SameExchange.refl _) rfl rfl rfl (Grows.same rfl rfl rfl rfl rfl) ?_⟩
  intro m member
  rcases mem_outstanding.mp member with ⟨bytes,inSent⟩ | other
  · exact mem_outstanding.mpr (.inl ⟨bytes,fewer inSent⟩)
  · exact mem_outstanding.mpr (.inr other)

theorem miss_valid (honest : Honest s) (fair : Fair s) (i : Nat) :
    Honest {s with air := s.air.eraseIdx i} ∧ Fair {s with air := s.air.eraseIdx i} := by
  have fewer : s.air.eraseIdx i ⊆ s.air := List.eraseIdx_subset
  refine ⟨⟨honest.sent,honest.flying,honest.queued,honest.held,honest.slots,honest.queue,fun frame member => honest.air frame (fewer member)⟩,
    apart_fair fair (SameExchange.refl _) rfl rfl rfl (Grows.same rfl rfl rfl rfl rfl) ?_⟩
  intro m member
  rcases mem_outstanding.mp member with sent | ⟨bytes,rsp,inQueue | inAir⟩ | held
  · exact mem_outstanding.mpr (.inl sent)
  · exact mem_outstanding.mpr (.inr (.inl ⟨bytes,rsp,.inl inQueue⟩))
  · exact mem_outstanding.mpr (.inr (.inl ⟨bytes,rsp,.inr (fewer inAir)⟩))
  · exact mem_outstanding.mpr (.inr (.inr held))

theorem step_valid (i : Input) (honest : Honest s) (fair : Fair s) (numbered : Numbered listen s i) :
    Honest (step mac payloads keys listen s i) ∧ Fair (step mac payloads keys listen s i) := by
  cases i with
  | submit req ctx nowMs => exact submit_valid honest fair req ctx nowMs numbered
  | tick nowMs armed queued => exact turn_valid honest fair nowMs armed queued
  | aired airedMs =>
      have same : SameExchange s.proxy (s.proxy.onAired airedMs) := by
        unfold HexProxy.onAired
        split <;> exact ⟨rfl,rfl,rfl,rfl,rfl,rfl⟩
      refine ⟨bridge_honest honest _ _ _ _ _ ?_,apart_fair fair same rfl rfl rfl (Grows.same rfl rfl rfl rfl rfl) (List.Subset.refl _)⟩
      rw [HexProxy.busy,same.phase,same.req]
      exact honest.flying
  | setParams rspTimeoutMs readRetries =>
      exact ⟨bridge_honest honest _ _ _ _ _ honest.flying,
        apart_fair fair ⟨rfl,rfl,rfl,rfl,rfl,rfl⟩ rfl rfl rfl (Grows.same rfl rfl rfl rfl rfl) (List.Subset.refl _)⟩
  | takeCmdSeq id =>
      simp only [step]
      split
      · exact ⟨honest,fair⟩
      · exact registry_valid honest fair _
  | adoptCtx id ctx => exact registry_valid honest fair _
  | observe hdr nowMs => exact registry_valid honest fair _
  | deliver i random nowMs =>
      simp only [step]
      split
      · exact ⟨honest,fair⟩
      · rename_i bytes mark here
        obtain ⟨valid,grows,less⟩ := receive_honest mac payloads honest (List.mem_of_getElem? here) numbered random nowMs
        exact ⟨valid,apart_fair fair (SameExchange.refl _) rfl rfl rfl grows less⟩
  | other bytes random nowMs =>
      simp only [step]
      split
      · exact ⟨honest,fair⟩
      · rename_i typed
        exact closing_valid honest fair (other_closing honest bytes random nowMs typed)
  | lose i => exact lose_valid honest fair i
  | hear i nowMs rollClaims =>
      simp only [step]
      split
      · exact ⟨honest,fair⟩
      · rename_i frame here
        exact hear_valid honest fair (List.mem_of_getElem? here) nowMs rollClaims fun unclaimed => numbered unclaimed frame here
  | miss i => exact miss_valid honest fair i
  | own input =>
      simp only [step]
      split
      · rename_i own
        exact closing_valid honest fair (own_closing s.node input own honest.slots)
      · exact ⟨honest,fair⟩
  | vedLine line => exact vedLine_valid honest fair line
  | reboot random phy config => exact reboot_valid honest fair random phy config
  | transmit => exact transmit_valid honest fair

theorem start_valid (c : Context) (random : RandomFn) (phy : PhyTrial) (config : Option GateLinkConfig) :
    Honest (start c random phy config) ∧ Fair (start c random phy config) := by
  refine ⟨⟨by simp [start],(fun busy => by cases busy),rfl,(fun active => by cases active),freshSlots config 0 [],by simp [start],by simp [start]⟩,
    ?_,(fun finished => by cases finished),by simp [start]⟩
  rintro (sendDue | awaiting)
  · cases sendDue
  · cases awaiting

variable (mac payloads keys listen)

-- In every run whose exchanges are numbered apart, Answered means answered: by the node, for a HEX_REQ of this submission, and
-- with a string of the charger's only where the job made from that HEX_REQ was running.
theorem answered_means_answered (c : Context) (random : RandomFn) (phy : PhyTrial) (config : Option GateLinkConfig) (s : Link)
    (run : Reached (step mac payloads keys listen) (Numbered listen) (start c random phy config) s) :
    ∀ r ∈ s.resolved, r.outcome = .answered → Agreed s r.submission r.status r.rsp r.answer := by
  have valid := run.invariant (fun s => Honest s ∧ Fair s) (start_valid c random phy config)
    fun s i valid numbered => step_valid i valid.1 valid.2 numbered
  exact valid.2.resolved

end

-- ":7F0ED0071", a read of the charger's current limit, and the charger's answer.
def getLine : Bytes := [0x3A,0x37,0x46,0x30,0x45,0x44,0x30,0x30,0x37,0x31]

def getReply : Bytes := [0x3A,0x37,0x46,0x30,0x45,0x44,0x30,0x30,0x36,0x34,0x30,0x30,0x30,0x44]

-- ":8F0ED0064000C" sets that limit, and is echoed.
def setLine : Bytes := [0x3A,0x38,0x46,0x30,0x45,0x44,0x30,0x30,0x36,0x34,0x30,0x30,0x30,0x43]

def gate : Link := start {id := nodeGateLink} (fun _ => 5) {} none

def listening : DecodeCtx := {self := nodeBridge}

def linkStep : Link → Input → Link := step lengthMac ChargerWrites.noPayloads (fun _ => zeroKey) listening

-- The charger answers, and the answer is transmitted.
def answering (reply : Bytes) : List Input :=
  [.deliver 0 (fun _ => 5) 10,.own (.vedStart 10 true),.vedLine reply,.own .vedPublish,.own .pollHex,.transmit]

def reading : List Input :=
  ([.observe {src := nodeGateLink,ctxId := 5} 0,.submit {dst := nodeGateLink,hex := getLine} 5 0,.tick 0 false true] : List Input) ++
    answering getReply ++ [.hear 0 200 false,.tick 200 false true]

theorem answered_means_answered_read :
    let s := reading.foldl linkStep gate
    (∃ r ∈ s.resolved, r.outcome = .answered ∧ r.submission = 0 ∧ r.rsp = getReply) ∧
      ∀ r ∈ s.resolved, r.outcome = .answered → Agreed s r.submission r.status r.rsp r.answer := by
  have permitted : Follows linkStep (Numbered listening) gate reading := by decide +kernel
  exact ⟨by decide +kernel,answered_means_answered lengthMac ChargerWrites.noPayloads (fun _ => zeroKey) listening {id := nodeGateLink} (fun _ => 5) {}
    none _ permitted.reached⟩

-- The first write to the node is number 1 of its context. Its answer is slow, the write is given up as Unknown, and the
-- first read the proxy ever sends, its own number 1, is resolved with it.
def crossing : List Input :=
  ([.observe {src := nodeGateLink,ctxId := 5} 0,.submit {dst := nodeGateLink,hex := setLine} 5 0,.tick 0 true true] : List Input) ++
    answering setLine ++
    [.tick 3000 true true,.submit {dst := nodeGateLink,hex := getLine} 5 3000,.tick 3000 true true,.hear 0 3010 false,.tick 3010 true true]

theorem late_write_answers_read :
    ¬ ∀ s, Reached linkStep (fun _ _ => True) gate s →
      ∀ r ∈ s.resolved, r.outcome = .answered → Agreed s r.submission r.status r.rsp r.answer := by
  intro always
  let s := crossing.foldl linkStep gate
  have permitted : Follows linkStep (fun _ _ => True) gate crossing := by decide +kernel
  have taken : ∃ r ∈ s.resolved, r.outcome = .answered ∧ r.submission = 1 ∧ ∀ frame ∈ r.answer, frame.2.submission = 0 := by decide +kernel
  obtain ⟨r,member,answered,second,first⟩ := taken
  obtain ⟨bytes,m,isFrame,_,_,own,_⟩ := always s permitted.reached r member answered
  have other := first (bytes,m) isFrame
  rw [own,second] at other
  cases other

end LoraRan.System.HexAnswers
