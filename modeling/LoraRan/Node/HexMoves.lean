import LoraRan.Node.HexServing

namespace LoraRan.Node
open Protocol Config

-- The HEX_RSPs a frame draws without the charger: only a HEX_REQ addressed here draws one, and it carries no string.
def Refusal (id : NodeId) (asked hdr : Header) (payload : Bytes) : Prop :=
  hdr.type = .hexRsp → asked.type = .hexReq ∧ (asked.dst = id ∨ asked.dst = nodeBroadcast) ∧ hdr.src = id ∧ hdr.seq = asked.seq ∧
    ∃ status : HexStatus, payload = HexRsp.serialize ⟨status.code,[]⟩

section
variable {σ : Type}

-- A step that hands the charger nothing and leaves the transaction in hand as it was.
structure Calm (mac : Mac) (ops : Application σ) (P : Header → Bytes → Prop) (n n' : Engine σ) : Prop where
  id : n'.ctx.id = n.ctx.id
  transaction : n'.ctx.hexPending = n.ctx.hexPending
  app : AppRuns ops n.app n'.app
  outbox : ∃ frames, n'.outbox = n.outbox ++ frames ∧ ∀ bytes ∈ frames, ∃ hdr payload ectx, P hdr payload ∧ encode hdr payload ectx maxFrame = .ok bytes

-- A step that hands the charger one string and opens the transaction for the frame `asked`.
structure Forwarded (mac : Mac) (ops : Application σ) (asked : Header) (n n' : Engine σ) : Prop where
  id : n'.ctx.id = n.ctx.id
  idle : n.ctx.hexPending.active = false
  transaction : ∃ dueMs, n'.ctx.hexPending = ⟨true,dueMs,asked.src,asked.seq⟩
  app : ∃ a c hex nowMs, AppRuns ops n.app a ∧ n'.app = (ops.hexForward a c hex nowMs).2
  outbox : ∃ frames, n'.outbox = n.outbox ++ frames ∧ ∀ bytes ∈ frames, ∃ hdr payload ectx, NoHexRsp hdr payload ∧ encode hdr payload ectx maxFrame = .ok bytes

variable {mac : Mac} {ops : Application σ} {P Q : Header → Bytes → Prop} {n m n' : Engine σ} {asked : Header}

theorem AppActs.runs_of_none {F : Bytes → Prop} {a b : σ} (acts : AppActs ops F a b) (none : ∀ hex, ¬ F hex) : AppRuns ops a b := by
  induction acts with
  | runs moved => exact moved
  | forward a c hex nowMs admitted => exact absurd admitted (none hex)
  | trans _ _ first second => exact .trans first second

theorem Calm.weaken (calm : Calm mac ops P n n') (implied : ∀ hdr payload, P hdr payload → Q hdr payload) : Calm mac ops Q n n' := by
  obtain ⟨frames,outbox,each⟩ := calm.outbox
  refine ⟨calm.id,calm.transaction,calm.app,frames,outbox,fun bytes member => ?_⟩
  obtain ⟨hdr,payload,ectx,holds,encoded⟩ := each bytes member
  exact ⟨hdr,payload,ectx,implied hdr payload holds,encoded⟩

theorem Calm.trans (first : Calm mac ops P n m) (second : Calm mac ops P m n') : Calm mac ops P n n' := by
  obtain ⟨frames,outbox,early⟩ := first.outbox
  obtain ⟨frames',outbox',late⟩ := second.outbox
  refine ⟨second.id.trans first.id,second.transaction.trans first.transaction,.trans first.app second.app,frames ++ frames',?_,?_⟩
  · rw [outbox',outbox,List.append_assoc]
  · intro bytes member
    rcases List.mem_append.mp member with inFirst | inSecond
    · exact early bytes inFirst
    · exact late bytes inSecond

theorem Calm.quiet (id : n'.ctx.id = n.ctx.id) (transaction : n'.ctx.hexPending = n.ctx.hexPending) (app : AppRuns ops n.app n'.app)
    (outbox : n'.outbox = n.outbox) : Calm mac ops P n n' := ⟨id,transaction,app,[],by simp [outbox],by simp⟩

theorem Calm.after (m : Engine σ) (calm : Calm mac ops P m n') (id : m.ctx.id = n.ctx.id) (transaction : m.ctx.hexPending = n.ctx.hexPending)
    (app : AppRuns ops n.app m.app) (outbox : m.outbox = n.outbox) : Calm mac ops P n n' := (Calm.quiet id transaction app outbox).trans calm

theorem Sends.calm (sends : Sends mac ops P n n') : Calm mac ops P n n' := by
  obtain ⟨_,_,_,ctx⟩ := sends.ctx
  obtain ⟨frames,outbox,each⟩ := sends.outbox
  refine ⟨by rw [ctx],by rw [ctx],sends.app,frames,outbox,fun bytes member => ?_⟩
  obtain ⟨hdr,payload,holds,encoded⟩ := each bytes member
  exact ⟨hdr,payload,_,holds,encoded⟩

-- A step known not to answer and not to forward.
theorem HexStill.calm {K : CallKind → Prop} (still : HexStill mac n n') (acts : Acts ops K n n') (none : ∀ hex, ¬ K (.hexForward hex)) :
    Calm mac ops NoHexRsp n n' := by
  obtain ⟨frames,outbox,each⟩ := still.outbox
  refine ⟨acts.id,still.transaction,acts.app.runs_of_none none,frames,outbox,fun bytes member => ?_⟩
  obtain ⟨hdr,payload,holds,encoded⟩ := each bytes member
  exact ⟨hdr,payload,_,holds,encoded⟩

theorem refusal_of_none (id : NodeId) (hdr : Header) (payload : Bytes) (none : NoHexRsp hdr payload) : Refusal id asked hdr payload :=
  fun isRsp => absurd isRsp none

theorem Forwarded.after (m : Engine σ) (forwarded : Forwarded mac ops asked m n') (calm : Calm mac ops NoHexRsp n m) :
    Forwarded mac ops asked n n' := by
  obtain ⟨a,c,hex,nowMs,runs,app⟩ := forwarded.app
  obtain ⟨frames,outbox,early⟩ := calm.outbox
  obtain ⟨frames',outbox',late⟩ := forwarded.outbox
  refine ⟨forwarded.id.trans calm.id,calm.transaction ▸ forwarded.idle,forwarded.transaction,⟨a,c,hex,nowMs,.trans calm.app runs,app⟩,
    frames ++ frames',?_,?_⟩
  · rw [outbox',outbox,List.append_assoc]
  · intro bytes member
    rcases List.mem_append.mp member with inFirst | inSecond
    · exact early bytes inFirst
    · exact late bytes inSecond

-- The two things a HEX_REQ can do.
def HexMoves (mac : Mac) (ops : Application σ) (asked : Header) (n n' : Engine σ) : Prop :=
  Calm mac ops (Refusal n.ctx.id asked) n n' ∨ Forwarded mac ops asked n n'

theorem HexMoves.after (m : Engine σ) (moves : HexMoves mac ops asked m n') (calm : Calm mac ops NoHexRsp n m) : HexMoves mac ops asked n n' := by
  rcases moves with refused | forwarded
  · rw [calm.id] at refused
    exact .inl ((calm.weaken (refusal_of_none _)).trans refused)
  · exact .inr (forwarded.after m calm)

theorem HexMoves.before (m : Engine σ) (moves : HexMoves mac ops asked n m) (id : n'.ctx.id = m.ctx.id)
    (transaction : n'.ctx.hexPending = m.ctx.hexPending) (app : n'.app = m.app) (outbox : n'.outbox = m.outbox) : HexMoves mac ops asked n n' := by
  rcases moves with refused | forwarded
  · exact .inl (refused.trans (Calm.quiet id transaction (app ▸ .refl _) outbox))
  · refine .inr ⟨id.trans forwarded.id,forwarded.idle,?_,?_,?_⟩
    · rw [transaction]
      exact forwarded.transaction
    · rw [app]
      exact forwarded.app
    · rw [outbox]
      exact forwarded.outbox

variable (mac ops)

theorem sendHexRsp_refuses (n : Engine σ) (status : HexStatus) (typed : asked.type = .hexReq)
    (addressed : asked.dst = n.ctx.id ∨ asked.dst = nodeBroadcast) :
    Calm mac ops (Refusal n.ctx.id asked) n (n.sendHexRsp mac asked.src asked.seq status []).2 := by
  refine (sendHexRsp_sends mac ops n asked.src asked.seq status []).calm.weaken ?_
  rintro hdr payload ⟨rfl,rfl⟩ _
  exact ⟨typed,addressed,rfl,rfl,status,rfl⟩

include ops in
theorem sendAck_calm (n : Engine σ) (peer : NodeId) (seq : Seq) (result : AckResult) (detail : UInt8) :
    Calm mac ops NoHexRsp n (n.sendAck mac peer seq result detail).2 :=
  (sendAck_sends mac ops n peer seq result detail).calm.weaken fun hdr payload frame => noHexRsp_of_ack _ _ _ hdr payload frame

section
variable (waits : ∀ a c hex nowMs, (ops.hexForward a c hex nowMs).1 = none)
include waits

theorem forwardHex_moves (n : Engine σ) (asked : Header) (payload : Bytes) (nowMs : UInt32) (typed : asked.type = .hexReq)
    (addressed : asked.dst = n.ctx.id ∨ asked.dst = nodeBroadcast) : HexMoves mac ops asked n (n.forwardHex mac ops asked payload nowMs) := by
  unfold Engine.forwardHex
  split
  · exact .inl (sendHexRsp_refuses mac ops n .malformedRequest typed addressed)
  · rename_i req _
    split
    · exact .inl (sendHexRsp_refuses mac ops n .malformedRequest typed addressed)
    · split
      · exact .inl (sendHexRsp_refuses mac ops n .busy typed addressed)
      · rename_i free
        dsimp only
        split
        · exact .inr ⟨rfl,eq_false_of_ne_true free,⟨_,rfl⟩,⟨n.app,n.ctx,req.hex,nowMs,.refl _,rfl⟩,[],by simp [Engine.call],by simp⟩
        · rename_i rsp answered
          exact absurd answered (by rw [waits]; simp)

theorem onHexReq_moves (n : Engine σ) (asked : Header) (payload : Bytes) (nowMs : UInt32) (typed : asked.type = .hexReq)
    (addressed : asked.dst = n.ctx.id ∨ asked.dst = nodeBroadcast) : HexMoves mac ops asked n (n.onHexReq mac ops asked payload nowMs) := by
  have settled : ∀ m : Engine σ, Calm mac ops NoHexRsp n m → HexMoves mac ops asked n m := fun m calm => .inl (calm.weaken (refusal_of_none _))
  have withheld : AppRuns ops n.app (ops.withhold n.app n.ctx .hexReq asked).2 := .withhold n.app n.ctx .hexReq asked
  unfold Engine.onHexReq
  dsimp only
  split
  · exact settled _ (Calm.quiet rfl rfl withheld rfl)
  · generalize readied : ({n with app := _,ctx := _} : Engine σ) = m
    have ready : Calm mac ops NoHexRsp n m := by
      subst readied
      exact Calm.quiet rfl rfl withheld rfl
    have gated : ∀ gate, Calm mac ops NoHexRsp n (m.setGate gate) := fun gate => ready.trans (Calm.quiet rfl rfl (.refl _) rfl)
    have through : ∀ o : Engine σ, Calm mac ops NoHexRsp n o → HexMoves mac ops asked n (o.forwardHex mac ops asked payload nowMs) :=
      fun o calm => HexMoves.after o (forwardHex_moves mac ops waits o asked payload nowMs typed (calm.id ▸ addressed)) calm
    split
    · split
      · exact through _ ((gated _).trans (Calm.quiet rfl rfl (.refl _) rfl))
      · exact settled _ ((gated _).trans (sendAck_calm mac ops _ _ _ _ _))
      · exact settled _ (gated _)
      · exact settled _ ((gated _).trans (sendAck_calm mac ops _ _ _ _ _))
    · exact through m ready

theorem deliver_hexMoves (n : Engine σ) (asked : Header) (payload : Bytes) (fragments : UInt8) (random : RandomFn) (nowMs : UInt32)
    (typed : asked.type = .hexReq) (addressed : asked.dst = n.ctx.id ∨ asked.dst = nodeBroadcast) :
    HexMoves mac ops asked n (n.deliver mac ops asked payload fragments random nowMs) := by
  have dispatched : ∀ m : Engine σ, m.ctx.id = n.ctx.id → HexMoves mac ops asked m (m.dispatch mac ops asked payload fragments random nowMs) := by
    intro m same
    unfold Engine.dispatch
    dsimp only
    rw [typed]
    dsimp only
    split
    · exact onHexReq_moves mac ops waits m asked payload nowMs typed (same ▸ addressed)
    · exact .inl (Calm.quiet rfl rfl (.refl _) rfl)
  let taken : Engine σ := {n with serving := some ⟨asked,payload⟩}
  have begun : Calm mac ops NoHexRsp n taken := Calm.quiet rfl rfl (.refl _) rfl
  unfold Engine.deliver
  dsimp only
  split
  · have reported : Calm mac ops NoHexRsp taken (taken.sendPhyReverted mac ops asked.src nowMs) :=
      Calm.after _ ((sendPhyReverted_sends mac ops taken asked.src nowMs).calm.weaken (noHexRsp_of_plain _)) rfl rfl (.refl _) rfl
    exact HexMoves.before _ (HexMoves.after _ (dispatched _ reported.id) (begun.trans reported)) rfl rfl rfl rfl
  · exact HexMoves.before _ (HexMoves.after taken (dispatched taken rfl) begun) rfl rfl rfl rfl

end

theorem deliver_calm (n : Engine σ) (hdr : Header) (payload : Bytes) (fragments : UInt8) (random : RandomFn) (nowMs : UInt32)
    (other : hdr.type ≠ .hexReq) : Calm mac ops NoHexRsp n (n.deliver mac ops hdr payload fragments random nowMs) := by
  have still : HexStill mac n (n.deliver mac ops hdr payload fragments random nowMs) := by
    by_cases command : hdr.type = .command
    · exact deliver_command_hexStill mac ops n hdr payload fragments random nowMs command
    · exact (deliver_aloof mac ops n hdr payload fragments random nowMs command other).still
  obtain ⟨served,acts,ended⟩ := deliver_acts mac ops n hdr payload fragments random nowMs
  have none : ∀ hex, ¬ Permitted n.ctx.gate ⟨hdr,payload⟩ (.hexForward hex) := fun hex permitted => other permitted.1.1
  obtain ⟨frames,outbox,each⟩ := still.outbox
  refine ⟨?_,still.transaction,?_,frames,outbox,fun bytes member => ?_⟩
  · rw [ended]
    exact acts.id
  · rw [ended]
    exact acts.app.runs_of_none none
  · obtain ⟨made,body,holds,encoded⟩ := each bytes member
    exact ⟨made,body,_,holds,encoded⟩

-- What the node says of itself.

theorem finishCommand_calm (n : Engine σ) (nowMs : UInt32) : Calm mac ops NoHexRsp n (n.finishCommand mac ops nowMs) :=
  (finishCommand_hexStill mac ops n nowMs).calm (K := fun _ => False) (finishCommand_acts mac ops n nowMs) fun _ never => never

theorem announceBoot_calm (n : Engine σ) (cause : UInt8) (nowMs : UInt32) : Calm mac ops NoHexRsp n (n.announceBoot mac ops cause nowMs).2 := by
  unfold Engine.announceBoot
  dsimp only
  have stated : Calm mac ops NoHexRsp n (n.sendStatus mac ops nodeBridge .boot nowMs).2 :=
    (sendStatus_sends mac ops n nodeBridge .boot nowMs).calm.weaken (noHexRsp_of_plain _)
  generalize (n.sendStatus mac ops nodeBridge .boot nowMs).2 = m at stated ⊢
  have noted : Calm mac ops NoHexRsp m {m with app := (ops.buildEvent m.app m.ctx .boot (resetCauseDetail cause) nowMs).2} :=
    Calm.quiet rfl rfl (.buildEvent m.app m.ctx .boot _ nowMs) rfl
  split
  · exact stated.trans (noted.trans (Calm.quiet rfl rfl (.refl _) rfl))
  · generalize ({m with app := _} : Engine σ) = ready at noted ⊢
    have told : Calm mac ops NoHexRsp ready (ready.sendEvent mac nodeBridge
        (ops.buildEvent m.app m.ctx .boot (resetCauseDetail cause) nowMs).1.1 (ops.buildEvent m.app m.ctx .boot (resetCauseDetail cause) nowMs).1.2).2 :=
      (sendEvent_sends mac ops ready nodeBridge _ _).calm.weaken (noHexRsp_of_plain _)
    split
    · exact stated.trans (noted.trans told)
    · exact stated.trans (noted.trans (told.trans (Calm.quiet rfl rfl (.refl _) rfl)))

theorem tune_calm (n : Engine σ) (tunings : List Tuning) : Calm mac ops NoHexRsp n (n.tune tunings) := by
  have acts : Acts ops (fun _ => False) n (n.tune tunings) := tune_acts n tunings
  have untouched := tune_untouched n tunings
  exact Calm.quiet acts.id untouched.transaction (.refl _) untouched.outbox

theorem refuseAuthenticated_calm (n : Engine σ) (asked : Header) (why : Status) :
    Calm mac ops (Refusal n.ctx.id asked) n (n.refuseAuthenticated mac asked why) := by
  have acked : ∀ (m : Engine σ) (result : AckResult), m.ctx.id = n.ctx.id → m.ctx.hexPending = n.ctx.hexPending → m.app = n.app →
      m.outbox = n.outbox → Calm mac ops (Refusal n.ctx.id asked) n (m.sendAck mac asked.src asked.seq result 0).2 := by
    intro m result id transaction app outbox
    have counted : Calm mac ops NoHexRsp n m := Calm.quiet id transaction (app ▸ .refl _) outbox
    exact (counted.trans (sendAck_calm mac ops m _ _ _ _)).weaken (refusal_of_none _)
  unfold Engine.refuseAuthenticated
  dsimp only
  generalize (if why = .rejectedCtx then AckResult.rejectedCtx else .rejectedMac) = result
  split
  · exact Calm.quiet rfl rfl (.refl _) rfl
  · rename_i here
    split
    · rename_i typed
      let counted : Engine σ := {n with ctx := {n.ctx with hexRequests := n.ctx.hexRequests + 1}}
      split
      · exact Calm.after counted (sendHexRsp_refuses mac ops counted _ typed (.inl (not_not.mp here))) rfl rfl (.refl _) rfl
      · exact acked counted result rfl rfl rfl rfl
    · split
      · exact Calm.quiet rfl rfl (.refl _) rfl
      · exact acked n result rfl rfl rfl rfl

theorem decodeHeader_addressed (buf : Bytes) (ctx : DecodeCtx) (header : Frame) (accepted : decodeHeader buf ctx = (.ok,header)) :
    (readHeader buf).dst = ctx.self ∨ (readHeader buf).dst = nodeBroadcast := by
  unfold decodeHeader at accepted
  split at accepted; · cases accepted
  split at accepted; · cases accepted
  split at accepted; · cases accepted
  dsimp only at accepted
  split at accepted; · cases accepted
  split at accepted; · cases accepted
  rename_i elsewhere
  by_cases self : (readHeader buf).dst = ctx.self
  · exact .inl self
  · exact .inr (by_contra fun wide => elsewhere ⟨self,wide⟩)

-- Any bytes at all: a frame other than a HEX_REQ draws no HEX_RSP, and a HEX_REQ draws an empty one or is handed over.
theorem receive_hexMoves (waits : ∀ a c hex nowMs, (ops.hexForward a c hex nowMs).1 = none) (n : Engine σ) (buf : Bytes) (random : RandomFn)
    (nowMs : UInt32) : Calm mac ops (Refusal n.ctx.id (readHeader buf)) n (n.receive mac ops buf random nowMs) ∨
      (readHeader buf).type = .hexReq ∧ ((readHeader buf).dst = n.ctx.id ∨ (readHeader buf).dst = nodeBroadcast) ∧
        Forwarded mac ops (readHeader buf) n (n.receive mac ops buf random nowMs) := by
  have idle : ∀ m, Counted n m → Calm mac ops NoHexRsp n m := fun m counted =>
    Calm.quiet (congrArg Core.id counted.core) counted.transaction (counted.app ▸ .refl _) counted.still.outbox
  rcases receive_cases mac ops n buf random nowMs with counted | ⟨m,why,counted,headed,refused⟩ | ⟨m,payload,fragments,counted,headed,_,delivered⟩
  · exact .inl ((idle _ counted).weaken (refusal_of_none _))
  · have calm := refuseAuthenticated_calm mac ops m (readHeader buf) why
    rw [(idle m counted).id] at calm
    rw [refused]
    exact .inl (((idle m counted).weaken (refusal_of_none _)).trans calm)
  · have addressed := decodeHeader_addressed buf _ _ headed
    rw [delivered]
    by_cases typed : (readHeader buf).type = .hexReq
    · have moves := deliver_hexMoves mac ops waits m (readHeader buf) payload fragments random nowMs typed ((idle m counted).id ▸ addressed)
      rcases HexMoves.after m moves (idle m counted) with refused | forwarded
      · exact .inl refused
      · exact .inr ⟨typed,addressed,forwarded⟩
    · exact .inl (((idle m counted).trans (deliver_calm mac ops m _ payload fragments random nowMs typed)).weaken (refusal_of_none _))

end
end LoraRan.Node
