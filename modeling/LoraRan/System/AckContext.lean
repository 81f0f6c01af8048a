import LoraRan.Node.HexServing
import LoraRan.System.Authenticated
import LoraRan.System.CommandLink

namespace LoraRan.System.AckContext
open Protocol Node
open System.Authenticated (EngineInput Input engineStep rebooted)

-- A request and the context it met.
structure Request where
  ctxId : CtxId
  seq : Seq
  deriving DecidableEq

-- A COMMAND_ACK or a HEX_RSP as it was queued, and whether the context was rolled under the work it reports.
structure Reply where
  ctxId : CtxId
  seq : Seq
  rolled : Bool
  deriving DecidableEq

-- A node with what it took in and what it answered: the COMMANDs its gate accepted, the HEX_REQs it heard, the
-- COMMAND_ACKs of finish_command and every HEX_RSP.
structure Watch (σ : Type) where
  engine : Engine σ
  accepted : List Request := []
  requested : List Request := []
  commandRolled : Bool := false
  hexRolled : Bool := false
  finished : List Reply := []
  responses : List Reply := []

-- The ACK a frame carries, and the request a HEX_RSP frame answers.
def ackIn (bytes : Bytes) : Option (CtxId × CommandAck) :=
  if (readHeader bytes).type = .commandAck then
    (CommandAck.deserialize ((bytes.drop hdrLen).take 6)).map fun ack => ((readHeader bytes).ctxId,ack)
  else none

def hexRspIn (bytes : Bytes) : Option Request :=
  if (readHeader bytes).type = .hexRsp then some ⟨(readHeader bytes).ctxId,(readHeader bytes).seq⟩ else none

-- A HEX_REQ that got past the header stages.
def hexHeard (c : Context) (buf : Bytes) : List Request :=
  match decodeHeader buf c.headerCtx with
  | (.ok,head) => if head.hdr.type = .hexReq then [⟨c.ctxId,head.hdr.seq⟩] else []
  | _ => []

section
variable {σ : Type}

-- What one step queued, and the calls it made.
def sent (n n' : Engine σ) : List Bytes := n'.outbox.drop n.outbox.length

def newCalls (n n' : Engine σ) : List Call := n'.calls.take (n'.calls.length - n.calls.length)

-- A COMMAND run on the gate's word: the seq of the payload in hand, in the context the gate was in.
def executed (n n' : Engine σ) : List Request :=
  (newCalls n n').filterMap fun c =>
    match c.kind,c.serving with
    | .execute _,some d => if (n.ctx.gate.check d.hdr.seq).1.verdict = .execute then some ⟨n.ctx.ctxId,d.hdr.seq⟩ else none
    | _,_ => none

-- A frame in hand is answered in its own step. Work left in hand is answered later, by the steps that finish it.
def Watch.observe (w : Watch σ) (n : Engine σ) (heard : List Request) (framed finishes : Bool) : Watch σ :=
  let frames := sent w.engine n
  let finished := frames.filterMap fun bytes => (ackIn bytes).map fun ack => (⟨ack.1,ack.2.ackSeq,!framed && w.commandRolled⟩ : Reply)
  {engine := n
   accepted := executed w.engine n ++ w.accepted
   requested := heard ++ w.requested
   commandRolled := w.engine.ctx.pending.active && n.ctx.pending.active && (w.commandRolled || n.ctx.ctxId != w.engine.ctx.ctxId)
   hexRolled := w.engine.ctx.hexPending.active && n.ctx.hexPending.active && (w.hexRolled || n.ctx.ctxId != w.engine.ctx.ctxId)
   finished := (if finishes then finished else []) ++ w.finished
   responses := frames.filterMap (fun bytes => (hexRspIn bytes).map fun rsp => (⟨rsp.ctxId,rsp.seq,!framed && w.hexRolled⟩ : Reply)) ++ w.responses}

variable (mac : Mac) (ops : Application σ)

-- finish_command runs within the COMMAND's own step when its execution is not deferred.
def step (w : Watch σ) : Input σ → Watch σ
  | .engine (.receive buf random nowMs) =>
      let n := w.engine.receive mac ops buf random nowMs
      w.observe n (hexHeard w.engine.ctx buf) true !(executed w.engine n).isEmpty
  | .engine (.finishCommand nowMs) => w.observe (w.engine.finishCommand mac ops nowMs) [] false true
  | .engine (.finishCommandWith nowMs result) => w.observe (w.engine.finishCommandWith mac ops nowMs result) [] false true
  | .engine input => w.observe (engineStep mac ops w.engine input) [] false false
  | .reboot random phy app => w.observe (rebooted w.engine random phy app) [] false false
  | .app app => w.observe {w.engine with app := app} [] false false

def start (c : Context) (random : RandomFn) (phy : PhyTrial) (app : σ) : Watch σ :=
  {engine := {ctx := resetContext c random,phy := phy,app := app}}

-- A reply's request is on record, and under the reply's own context unless a roll came between.
def Taken (log : List Request) (ctxId : CtxId) (seq : Seq) (rolled : Bool) : Prop :=
  ∃ request ∈ log, request.seq = seq ∧ (rolled = false → request.ctxId = ctxId)

structure Kept (w : Watch σ) : Prop where
  command : w.engine.ctx.pending.active = true → Taken w.accepted w.engine.ctx.ctxId w.engine.ctx.pending.seq w.commandRolled
  hex : w.engine.ctx.hexPending.active = true → Taken w.requested w.engine.ctx.ctxId w.engine.ctx.hexPending.seq w.hexRolled
  finished : ∀ r ∈ w.finished, Taken w.accepted r.ctxId r.seq r.rolled
  responses : ∀ r ∈ w.responses, Taken w.requested r.ctxId r.seq r.rolled

-- Work in hand after a step is the work that was in hand, or a request of this step.
inductive InHand (was now : Bool) (seq seq' : Seq) (ctxId ctxId' : CtxId) (log : List Request) : Prop
  | idle : now = false → InHand was now seq seq' ctxId ctxId' log
  | same : was = true → seq' = seq → InHand was now seq seq' ctxId ctxId' log
  | new : was = false → ctxId' = ctxId → ⟨ctxId,seq'⟩ ∈ log → InHand was now seq seq' ctxId ctxId' log

-- What one step answers: requests of its own when it brings a frame, else the work that was in hand.
structure Answered (n n' : Engine σ) (heard : List Request) (framed finishes : Bool) : Prop where
  command : InHand n.ctx.pending.active n'.ctx.pending.active n.ctx.pending.seq n'.ctx.pending.seq n.ctx.ctxId n'.ctx.ctxId (executed n n')
  hex : InHand n.ctx.hexPending.active n'.ctx.hexPending.active n.ctx.hexPending.seq n'.ctx.hexPending.seq n.ctx.ctxId n'.ctx.ctxId heard
  acks : finishes = true → ∀ bytes ∈ sent n n', ∀ ctxId ack, ackIn bytes = some (ctxId,ack) →
    if framed then ⟨ctxId,ack.ackSeq⟩ ∈ executed n n' else n.ctx.pending.active = true ∧ ctxId = n.ctx.ctxId ∧ ack.ackSeq = n.ctx.pending.seq
  responses : ∀ bytes ∈ sent n n', ∀ rsp, hexRspIn bytes = some rsp →
    if framed then rsp ∈ heard else n.ctx.hexPending.active = true ∧ rsp = ⟨n.ctx.ctxId,n.ctx.hexPending.seq⟩

variable {mac ops}

theorem Taken.mono {log more : List Request} {ctxId : CtxId} {seq : Seq} {rolled : Bool} (taken : Taken log ctxId seq rolled) (within : log ⊆ more) :
    Taken more ctxId seq rolled := by
  obtain ⟨request,member,rest⟩ := taken
  exact ⟨request,within member,rest⟩

theorem inHand_taken {was now rolled : Bool} {seq seq' : Seq} {ctxId ctxId' : CtxId} {log new : List Request}
    (inHand : InHand was now seq seq' ctxId ctxId' new) (taken : was = true → Taken log ctxId seq rolled) (active : now = true) :
    Taken (new ++ log) ctxId' seq' (was && now && (rolled || ctxId' != ctxId)) := by
  cases inHand with
  | idle idle => rw [active] at idle; cases idle
  | same was sameSeq =>
      obtain ⟨request,member,named,context⟩ := taken was
      refine ⟨request,List.mem_append_right _ member,named.trans sameSeq.symm,fun kept => ?_⟩
      subst was active
      simp only [Bool.and_self,Bool.true_and,Bool.or_eq_false_iff,bne_eq_false_iff_eq] at kept
      rw [kept.2]
      exact context kept.1
  | new _ sameCtx member => exact ⟨_,List.mem_append_left _ member,rfl,fun _ => sameCtx.symm⟩

theorem observe_kept (w : Watch σ) (n : Engine σ) (heard : List Request) (framed finishes : Bool) (kept : Kept w)
    (answered : Answered w.engine n heard framed finishes) : Kept (w.observe n heard framed finishes) := by
  refine ⟨inHand_taken answered.command kept.command,inHand_taken answered.hex kept.hex,?_,?_⟩
  · intro r member
    rcases List.mem_append.mp member with new | old
    · cases finishes with
      | false => cases new
      | true =>
          obtain ⟨bytes,here,read⟩ := List.mem_filterMap.mp new
          obtain ⟨⟨ctxId,ack⟩,found,rfl⟩ := Option.map_eq_some_iff.mp read
          have source := answered.acks rfl bytes here ctxId ack found
          cases framed with
          | true => exact ⟨_,List.mem_append_left _ source,rfl,fun _ => rfl⟩
          | false =>
              obtain ⟨active,rfl,named⟩ := source
              have taken := (kept.command active).mono (List.subset_append_right (executed w.engine n) w.accepted)
              rw [← named] at taken
              exact taken
    · exact (kept.finished r old).mono (List.subset_append_right _ _)
  · intro r member
    rcases List.mem_append.mp member with new | old
    · obtain ⟨bytes,here,read⟩ := List.mem_filterMap.mp new
      obtain ⟨rsp,found,rfl⟩ := Option.map_eq_some_iff.mp read
      have source := answered.responses bytes here rsp found
      cases framed with
      | true => exact ⟨_,List.mem_append_left _ source,rfl,fun _ => rfl⟩
      | false =>
          obtain ⟨active,rfl⟩ := source
          exact (kept.hex active).mono (List.subset_append_right _ _)
    · exact (kept.responses r old).mono (List.subset_append_right _ _)

-- Reading one step.

variable {n n' : Engine σ}

theorem sent_of_outbox {frames : List Bytes} (outbox : n'.outbox = n.outbox ++ frames) : sent n n' = frames := by
  rw [sent,outbox,List.drop_left]

theorem newCalls_of_calls {made : List Call} (calls : n'.calls = made ++ n.calls) : newCalls n n' = made := by
  rw [newCalls,calls,List.length_append,Nat.add_sub_cancel,List.take_left]

theorem newCalls_kinds {made : List CallKind} (kinds : n'.calls.map Call.kind = made ++ n.calls.map Call.kind) :
    (newCalls n n').map Call.kind = made := by
  have length := congrArg List.length kinds
  simp only [List.length_map,List.length_append] at length
  rw [newCalls,List.map_take,kinds,length,Nat.add_sub_cancel,List.take_left]

theorem executed_none (none : ∀ kind ∈ (newCalls n n').map Call.kind, ∀ cmd, kind ≠ .execute cmd) : executed n n' = [] := by
  refine List.filterMap_eq_nil_iff.mpr ?_
  rintro ⟨kind,serving⟩ member
  have other := none kind (List.mem_map_of_mem member)
  cases kind with
  | execute cmd => exact absurd rfl (other cmd)
  | _ => rfl

theorem executed_one {d : Delivery} {cmd : Command} (kinds : (newCalls n n').map Call.kind = [.execute cmd])
    (served : ∀ c ∈ newCalls n n', c.serving = some d ∧ Permitted n.ctx.gate d c.kind) : executed n n' = [⟨n.ctx.ctxId,d.hdr.seq⟩] := by
  obtain ⟨⟨kind,serving⟩,only,rfl⟩ := List.map_eq_singleton_iff.mp kinds
  obtain ⟨rfl,permitted⟩ := served _ (by rw [only]; exact List.mem_singleton_self _)
  have passed : (n.ctx.gate.check d.hdr.seq).1.verdict = .execute := permitted.2
  rw [executed,only]
  simp [passed]

theorem hexRspIn_encoded {hdr : Header} {payload bytes : Bytes} {ctx : EncodeCtx} {cap : Nat} {rsp : Request}
    (encoded : encode hdr payload ctx cap = .ok bytes) (found : hexRspIn bytes = some rsp) : hdr.type = .hexRsp ∧ rsp = ⟨hdr.ctxId,hdr.seq⟩ := by
  obtain ⟨_,_,tag,_,rfl⟩ := encode_parts _ _ _ _ _ encoded
  unfold hexRspIn at found
  rw [readHeader_encoded] at found
  split at found
  · rename_i typed
    exact ⟨typed,(Option.some.inj found).symm⟩
  · cases found

theorem ackIn_encoded {hdr : Header} {payload bytes : Bytes} {ctx : EncodeCtx} {cap : Nat} {ctxId : CtxId} {ack : CommandAck}
    (encoded : encode hdr payload ctx cap = .ok bytes) (found : ackIn bytes = some (ctxId,ack)) :
    hdr.type = .commandAck ∧ ctxId = hdr.ctxId ∧ ∀ said : CommandAck, payload = said.serialize → ack = said := by
  obtain ⟨_,_,tag,_,rfl⟩ := encode_parts _ _ _ _ _ encoded
  unfold ackIn at found
  rw [readHeader_encoded] at found
  split at found
  · rename_i typed
    obtain ⟨said,parsed,same⟩ := Option.map_eq_some_iff.mp found
    cases same
    refine ⟨typed,rfl,?_⟩
    rintro said rfl
    have body : ((withCrc (writeHeader hdr ++ said.serialize ++ tag)).drop hdrLen).take 6 = said.serialize := rfl
    rw [body,CommandAck.deserialize_serialize] at parsed
    exact (Option.some.inj parsed).symm
  · cases found

theorem inHand_kept {was now : Bool} {seq seq' : Seq} {ctxId ctxId' : CtxId} {log : List Request} (active : now = was) (named : seq' = seq) :
    InHand was now seq seq' ctxId ctxId' log := by
  cases was with
  | true => exact .same rfl named
  | false => exact .idle active

-- A step that queues nothing and leaves the work in hand alone.
theorem untouched_answered (n n' : Engine σ) (heard : List Request) (framed finishes : Bool) (untouched : Untouched n n') :
    Answered n n' heard framed finishes := by
  have none : sent n n' = [] := sent_of_outbox (by rw [untouched.outbox,List.append_nil])
  refine ⟨inHand_kept ?_ ?_,inHand_kept ?_ ?_,?_,?_⟩
  · rw [untouched.bystander.pending]
  · rw [untouched.bystander.pending]
  · rw [untouched.transaction]
  · rw [untouched.transaction]
  · intro _ bytes member
    rw [none] at member
    cases member
  · intro bytes member
    rw [none] at member
    cases member

-- A step that answers no HEX_REQ and finishes no COMMAND.
theorem aloof_answered (aloof : Aloof mac n n') (heard : List Request) (framed : Bool) : Answered n n' heard framed false := by
  obtain ⟨frames,outbox,each⟩ := aloof.still.outbox
  refine ⟨inHand_kept ?_ ?_,inHand_kept ?_ ?_,(fun never => by cases never),?_⟩
  · rw [aloof.bystander.pending]
  · rw [aloof.bystander.pending]
  · rw [aloof.still.transaction]
  · rw [aloof.still.transaction]
  · intro bytes member rsp found
    rw [sent_of_outbox outbox] at member
    obtain ⟨hdr,payload,noRsp,encoded⟩ := each bytes member
    exact absurd (hexRspIn_encoded encoded found).1 noRsp

-- A COMMAND in hand. Only an execution begins work or finishes it within the step.
theorem command_answered (hdr : Header) (payload : Bytes) (heard : List Request) (served : Served mac n n' hdr.seq payload) (still : HexStill mac n n')
    (fit : ∀ c ∈ newCalls n n', c.serving = some ⟨hdr,payload⟩ ∧ Permitted n.ctx.gate ⟨hdr,payload⟩ c.kind) :
    Answered n n' heard true !(executed n n').isEmpty := by
  obtain ⟨P,core,made,outcome,effect⟩ := served
  obtain ⟨frames,outbox,each⟩ := still.outbox
  obtain ⟨frames',outbox',each'⟩ := effect.outbox
  have kinds := newCalls_kinds effect.calls
  have pending : n'.ctx.pending = core.pending := congrArg Core.pending effect.core
  have context : n'.ctx.ctxId = core.ctxId := congrArg Core.ctxId effect.core
  have silent : ∀ bytes ∈ sent n n', ∀ rsp, hexRspIn bytes = some rsp → rsp ∈ heard := by
    intro bytes member rsp found
    rw [sent_of_outbox outbox] at member
    obtain ⟨_,_,noRsp,encoded⟩ := each bytes member
    exact absurd (hexRspIn_encoded encoded found).1 noRsp
  have transaction : InHand n.ctx.hexPending.active n'.ctx.hexPending.active n.ctx.hexPending.seq n'.ctx.hexPending.seq n.ctx.ctxId n'.ctx.ctxId
      heard := inHand_kept (by rw [still.transaction]) (by rw [still.transaction])
  -- Without an execution nothing is logged and the command in hand stays.
  have rest : core.pending = n.ctx.pending → (∀ kind ∈ made, ∀ cmd, kind ≠ .execute cmd) →
      Answered n n' heard true !(executed n n').isEmpty := by
    intro kept none
    have nothing : executed n n' = [] := executed_none (by rw [kinds]; exact none)
    refine ⟨inHand_kept (by rw [pending,kept]) (by rw [pending,kept]),transaction,?_,silent⟩
    rw [nothing]
    intro never
    cases never
  cases outcome with
  | quiet => exact rest rfl (by simp)
  | refused => exact rest rfl (by simp)
  | cached => exact rest rfl (by simp)
  | rolled => exact rest rfl (by simp)
  | busy => exact rest rfl (by simp)
  | deferred cmd next _ _ _ idle active named =>
      have only := executed_one kinds fit
      refine ⟨.new idle context ?_,transaction,?_,silent⟩
      · rw [only,pending]
        exact List.mem_singleton.mpr (congrArg (Request.mk n.ctx.ctxId) named)
      · intro _ bytes member ctxId ack found
        rw [sent_of_outbox outbox'] at member
        obtain ⟨_,_,noAck,encoded⟩ := each' bytes member
        exact absurd (ackIn_encoded encoded found).1 noAck
  | executed cmd next _ _ _ idle active named =>
      have only := executed_one kinds fit
      refine ⟨.idle ?_,transaction,?_,silent⟩
      · rw [pending]
        rfl
      · intro _ bytes member ctxId ack found
        rw [sent_of_outbox outbox'] at member
        obtain ⟨_,body,answer,encoded⟩ := each' bytes member
        obtain ⟨typed,rfl,reads⟩ := ackIn_encoded encoded found
        obtain ⟨_,sameCtx,said⟩ := answer typed
        rw [only,reads _ said,sameCtx]
        exact List.mem_singleton_self _

-- A HEX_REQ in hand.
theorem hex_answered (seq : Seq) (payload : Bytes) (served : HexServed mac n n' seq payload) :
    Answered n n' [⟨n.ctx.ctxId,seq⟩] true !(executed n n').isEmpty := by
  obtain ⟨P,core,h,made,outcome,effect,left⟩ := served
  obtain ⟨frames,outbox,each⟩ := effect.outbox
  have kinds := newCalls_kinds effect.calls
  have pending : n'.ctx.pending = core.pending := congrArg Core.pending effect.core
  have context : n'.ctx.ctxId = core.ctxId := congrArg Core.ctxId effect.core
  have answered : core.pending = n.ctx.pending → (∀ kind ∈ made, ∀ cmd, kind ≠ .execute cmd) →
      InHand n.ctx.hexPending.active h.active n.ctx.hexPending.seq h.seq n.ctx.ctxId core.ctxId [⟨n.ctx.ctxId,seq⟩] →
      (∀ hdr body, P hdr body → HexAnswers n.ctx.ctxId seq hdr body) → Answered n n' [⟨n.ctx.ctxId,seq⟩] true !(executed n n').isEmpty := by
    intro kept none inHand spoken
    have nothing : executed n n' = [] := executed_none (by rw [kinds]; exact none)
    refine ⟨inHand_kept (by rw [pending,kept]) (by rw [pending,kept]),?_,?_,?_⟩
    · rw [left,context]
      exact inHand
    · rw [nothing]
      intro never
      cases never
    · intro bytes member rsp found
      rw [sent_of_outbox outbox] at member
      obtain ⟨hdr,body,made',encoded⟩ := each bytes member
      obtain ⟨typed,rfl⟩ := hexRspIn_encoded encoded found
      obtain ⟨sameCtx,sameSeq⟩ := spoken hdr body made' typed
      rw [if_pos rfl,sameCtx,sameSeq]
      exact List.mem_singleton_self _
  have same : ∀ c : CtxId, InHand n.ctx.hexPending.active n.ctx.hexPending.active n.ctx.hexPending.seq n.ctx.hexPending.seq n.ctx.ctxId c
      [⟨n.ctx.ctxId,seq⟩] := fun c => inHand_kept rfl rfl
  cases outcome with
  | quiet => exact answered rfl (by simp) (same _) fun hdr body mute isRsp => absurd isRsp mute.2
  | cached => exact answered rfl (by simp) (same _) fun hdr body answer isRsp => absurd isRsp answer.2
  | rejected => exact answered rfl (by simp) (same _) fun hdr body answer isRsp => absurd isRsp answer.2
  | refused => exact answered rfl (by simp) (same _) fun hdr body answer => answer.1
  | replied => exact answered rfl (by simp) (same _) fun hdr body answer => answer.1
  | waits _ _ _ _ _ idle =>
      exact answered rfl (by simp) (.new idle rfl (List.mem_singleton_self _)) fun hdr body mute isRsp => absurd isRsp mute.2

variable (mac ops)

include ops in
theorem refused_answered (n m : Engine σ) (asked : Header) (why : Status) (heard : List Request) (counted : Counted n m)
    (listed : asked.type = .hexReq → ⟨n.ctx.ctxId,asked.seq⟩ ∈ heard) :
    Answered n (m.refuseAuthenticated mac asked why) heard true !(executed n (m.refuseAuthenticated mac asked why)).isEmpty := by
  obtain ⟨effect,left⟩ := refuseAuthenticated_refuses mac ops m asked why
  have effect := Effect.after m effect counted.still
  generalize m.refuseAuthenticated mac asked why = n' at effect left ⊢
  obtain ⟨frames,outbox,each⟩ := effect.outbox
  have nothing : executed n n' = [] := executed_none (by rw [newCalls_kinds effect.calls]; simp)
  have core := effect.core.trans counted.core
  have pending : n'.ctx.pending = n.ctx.pending := congrArg Core.pending core
  have transaction := left.trans counted.transaction
  refine ⟨inHand_kept (by rw [pending]) (by rw [pending]),inHand_kept (by rw [transaction]) (by rw [transaction]),?_,?_⟩
  · rw [nothing]
    intro never
    cases never
  · intro bytes member rsp found
    rw [sent_of_outbox outbox] at member
    obtain ⟨hdr,body,refuses,encoded⟩ := each bytes member
    obtain ⟨typed,rfl⟩ := hexRspIn_encoded encoded found
    obtain ⟨isReq,sameCtx,sameSeq⟩ := refuses.1 typed
    rw [if_pos rfl,sameCtx,sameSeq,counted.core]
    exact listed isReq

theorem receive_answered (n : Engine σ) (buf : Bytes) (random : RandomFn) (nowMs : UInt32) :
    Answered n (n.receive mac ops buf random nowMs) (hexHeard n.ctx buf) true !(executed n (n.receive mac ops buf random nowMs)).isEmpty := by
  rcases receive_cases mac ops n buf random nowMs with counted | ⟨m,why,counted,headed,refused⟩ | ⟨m,payload,fragments,counted,headed,_,delivered⟩
  · exact untouched_answered _ _ _ _ _ counted.untouched
  · have listed : (readHeader buf).type = .hexReq → ⟨n.ctx.ctxId,(readHeader buf).seq⟩ ∈ hexHeard n.ctx buf := by
      intro typed
      simp [hexHeard,headed,typed]
    rw [refused]
    exact refused_answered mac ops n m _ why _ counted listed
  · obtain ⟨served,acts,ended⟩ := deliver_acts mac ops m (readHeader buf) payload fragments random nowMs
    have fit : ∀ c ∈ newCalls n (n.receive mac ops buf random nowMs), c.serving = some ⟨readHeader buf,payload⟩ ∧
        Permitted n.ctx.gate ⟨readHeader buf,payload⟩ c.kind := by
      obtain ⟨made,calls,each⟩ := acts.calls
      have joined : (n.receive mac ops buf random nowMs).calls = made ++ n.calls := by
        rw [delivered,ended,← counted.still.calls]
        exact calls
      rw [newCalls_of_calls joined,← show m.ctx.gate = n.ctx.gate from congrArg Core.gate counted.core]
      exact each
    have still : Still n m := counted.still
    rw [delivered] at fit ⊢
    by_cases isCommand : (readHeader buf).type = .command
    · have hexStill : HexStill mac n m := HexStill.quiet still.key counted.transaction still.outbox
      exact command_answered (readHeader buf) payload _
        (Served.after m (deliver_served mac ops m _ payload fragments random nowMs isCommand) still counted.core)
        (hexStill.trans (deliver_command_hexStill mac ops m _ payload fragments random nowMs isCommand)) fit
    · by_cases isHexReq : (readHeader buf).type = .hexReq
      · have listed : hexHeard n.ctx buf = [⟨n.ctx.ctxId,(readHeader buf).seq⟩] := by simp [hexHeard,headed,isHexReq]
        rw [listed]
        exact hex_answered _ payload
          (HexServed.after m (deliver_hexServed mac ops m _ payload fragments random nowMs isHexReq) still counted.core counted.transaction)
      · -- No other type asks for an execution.
        have nothing : executed n (m.deliver mac ops (readHeader buf) payload fragments random nowMs) = [] := by
          refine executed_none ?_
          rintro kind member cmd rfl
          obtain ⟨c,made,isExecute⟩ := List.mem_map.mp member
          have permitted := (fit c made).2
          rw [isExecute] at permitted
          exact isCommand permitted.1.1
        rw [nothing]
        exact aloof_answered (Aloof.after m (deliver_aloof mac ops m _ payload fragments random nowMs isCommand isHexReq) counted.untouched) _ _

-- The ACK owed for the command in hand.
theorem finish_answered (n m : Engine σ) (nowMs : UInt32) (active : m.ctx.pending.active = n.ctx.pending.active) (named : m.ctx.pending.seq = n.ctx.pending.seq)
    (context : m.ctx.ctxId = n.ctx.ctxId) (untouched : m.ctx.key = n.ctx.key ∧ m.ctx.hexPending = n.ctx.hexPending ∧ m.outbox = n.outbox ∧ m.calls = n.calls) :
    Answered n (m.finishCommand mac ops nowMs) [] false true := by
  obtain ⟨key,transaction,outbox,calls⟩ := untouched
  have still : HexStill mac n (m.finishCommand mac ops nowMs) :=
    (HexStill.quiet key transaction outbox).trans (finishCommand_hexStill mac ops m nowMs)
  obtain ⟨frames,queued,each⟩ := still.outbox
  have silent : ∀ bytes ∈ sent n (m.finishCommand mac ops nowMs), ∀ rsp, hexRspIn bytes = some rsp →
      n.ctx.hexPending.active = true ∧ rsp = ⟨n.ctx.ctxId,n.ctx.hexPending.seq⟩ := by
    intro bytes member rsp found
    rw [sent_of_outbox queued] at member
    obtain ⟨_,_,noRsp,encoded⟩ := each bytes member
    exact absurd (hexRspIn_encoded encoded found).1 noRsp
  have hex : InHand n.ctx.hexPending.active (m.finishCommand mac ops nowMs).ctx.hexPending.active n.ctx.hexPending.seq
      (m.finishCommand mac ops nowMs).ctx.hexPending.seq n.ctx.ctxId (m.finishCommand mac ops nowMs).ctx.ctxId [] :=
    inHand_kept (congrArg HexPending.active still.transaction) (congrArg HexPending.seq still.transaction)
  cases inHand : m.ctx.pending.active with
  | false =>
      have same : m.finishCommand mac ops nowMs = m := by
        unfold Engine.finishCommand
        rw [if_pos (by rw [inHand]; rfl)]
      refine ⟨.idle ?_,hex,?_,silent⟩
      · rw [same,inHand]
      · intro _ bytes member
        rw [same,sent_of_outbox (by rw [outbox,List.append_nil])] at member
        cases member
  | true =>
      have effect := finishCommand_effect mac ops m nowMs inHand
      obtain ⟨frames',queued',each'⟩ := effect.outbox
      have pending : (m.finishCommand mac ops nowMs).ctx.pending = m.ctx.core.finished.pending := congrArg Core.pending effect.core
      refine ⟨.idle ?_,hex,?_,silent⟩
      · rw [pending]
        rfl
      · intro _ bytes member ctxId ack found
        rw [outbox] at queued'
        rw [sent_of_outbox queued'] at member
        obtain ⟨hdr,body,answer,encoded⟩ := each' bytes member
        obtain ⟨typed,rfl,reads⟩ := ackIn_encoded encoded found
        obtain ⟨_,sameCtx,said⟩ := answer typed
        rw [if_neg (by decide),reads _ said]
        exact ⟨active.symm.trans inHand,sameCtx.trans context,named⟩

-- The HEX_RSP owed for the transaction in hand: `m` is the node once the transaction is closed.
include ops in
theorem closed_answered (n m : Engine σ) (status : HexStatus) (hex : Bytes) (active : n.ctx.hexPending.active = true)
    (closed : m.ctx.hexPending.active = false) (kept : m.ctx.core = n.ctx.core) (still : Still n m) :
    Answered n (m.sendHexRsp mac n.ctx.hexPending.peer n.ctx.hexPending.seq status hex).2 [] false false := by
  obtain ⟨effect,left⟩ := sendHexRsp_answers mac ops m n.ctx.hexPending.peer n.ctx.hexPending.seq status hex
  have effect := Effect.after m effect still
  generalize (m.sendHexRsp mac n.ctx.hexPending.peer n.ctx.hexPending.seq status hex).2 = n' at effect left ⊢
  obtain ⟨frames,outbox,each⟩ := effect.outbox
  have pending : n'.ctx.pending = n.ctx.pending := congrArg Core.pending (effect.core.trans kept)
  refine ⟨inHand_kept (by rw [pending]) (by rw [pending]),.idle (by rw [left,closed]),(fun never => by cases never),?_⟩
  intro bytes member rsp found
  rw [sent_of_outbox outbox] at member
  obtain ⟨hdr,body,answer,encoded⟩ := each bytes member
  obtain ⟨typed,rfl⟩ := hexRspIn_encoded encoded found
  obtain ⟨sameCtx,sameSeq⟩ := answer.1 typed
  rw [if_neg (by decide),sameCtx,sameSeq,show m.ctx.ctxId = n.ctx.ctxId from congrArg Core.ctxId kept]
  exact ⟨active,rfl⟩

include ops in
theorem completeHex_answered (n : Engine σ) (status : HexStatus) (hex : Bytes) : Answered n (n.completeHex mac status hex).2 [] false false := by
  unfold Engine.completeHex
  split
  · exact untouched_answered _ _ _ _ _ ⟨⟨rfl,rfl,rfl⟩,rfl,rfl⟩
  · rename_i active
    exact closed_answered mac ops n _ status hex (by simpa using active) rfl rfl ⟨rfl,rfl,rfl⟩

include ops in
theorem tick_answered (n : Engine σ) (nowMs : UInt32) : Answered n (n.tick mac nowMs) [] false false := by
  unfold Engine.tick Engine.tickHex
  dsimp only
  split
  · exact untouched_answered _ _ _ _ _ ⟨⟨rfl,rfl,rfl⟩,rfl,rfl⟩
  · rename_i due
    have active : n.ctx.hexPending.active = true := by
      by_contra idle
      exact due (.inl (by simp [idle]))
    exact closed_answered mac ops n _ .timeout [] active rfl rfl ⟨rfl,rfl,rfl⟩

theorem announceBoot_aloof (n : Engine σ) (cause : UInt8) (nowMs : UInt32) : Aloof mac n (n.announceBoot mac ops cause nowMs).2 := by
  unfold Engine.announceBoot
  dsimp only
  have stated : Aloof mac n (n.sendStatus mac ops nodeBridge .boot nowMs).2 := (sendStatus_sends mac ops n nodeBridge .boot nowMs).plain_aloof
  generalize (n.sendStatus mac ops nodeBridge .boot nowMs).2 = m at stated ⊢
  have dropped : ∀ o : Engine σ, Aloof mac o o.countDropped := fun o => Untouched.aloof ⟨⟨rfl,rfl,rfl⟩,rfl,rfl⟩
  let event := ops.buildEvent m.app m.ctx .boot (resetCauseDetail cause) nowMs
  let built : Engine σ := {m with app := event.2}
  have ready : Aloof mac n built := stated.trans (Untouched.aloof ⟨⟨rfl,rfl,rfl⟩,rfl,rfl⟩)
  split
  · exact ready.trans (dropped built)
  · have told := ready.trans (sendEvent_sends mac ops built nodeBridge event.1.1 event.1.2).plain_aloof
    split
    · exact told
    · exact told.trans (dropped _)

-- A step with an empty outbox, or a shorter one, and nothing new in hand.
theorem silent_answered (n n' : Engine σ) (none : sent n n' = [])
    (command : InHand n.ctx.pending.active n'.ctx.pending.active n.ctx.pending.seq n'.ctx.pending.seq n.ctx.ctxId n'.ctx.ctxId (executed n n'))
    (hex : InHand n.ctx.hexPending.active n'.ctx.hexPending.active n.ctx.hexPending.seq n'.ctx.hexPending.seq n.ctx.ctxId n'.ctx.ctxId []) :
    Answered n n' [] false false := by
  refine ⟨command,hex,(fun never => by cases never),?_⟩
  intro bytes member
  rw [none] at member
  cases member

theorem step_kept (w : Watch σ) (i : Input σ) (kept : Kept w) : Kept (step mac ops w i) := by
  cases i with
  | reboot random phy app =>
      exact observe_kept w _ [] false false kept (silent_answered _ _ (by simp [sent,rebooted]) (.idle rfl) (.idle rfl))
  | app app => exact observe_kept w _ [] false false kept (untouched_answered _ _ _ _ _ ⟨⟨rfl,rfl,rfl⟩,rfl,rfl⟩)
  | engine input =>
      cases input with
      | receive buf random nowMs => exact observe_kept w _ _ true _ kept (receive_answered mac ops w.engine buf random nowMs)
      | finishCommand nowMs => exact observe_kept w _ [] false true kept (finish_answered mac ops w.engine w.engine nowMs rfl rfl rfl ⟨rfl,rfl,rfl,rfl⟩)
      | finishCommandWith nowMs result =>
          exact observe_kept w _ [] false true kept (finish_answered mac ops w.engine _ nowMs rfl rfl rfl ⟨rfl,rfl,rfl,rfl⟩)
      | tick nowMs => exact observe_kept w _ [] false false kept (tick_answered mac ops w.engine nowMs)
      | completeHex status hex => exact observe_kept w _ [] false false kept (completeHex_answered mac ops w.engine status hex)
      | reset random => exact observe_kept w _ [] false false kept (silent_answered _ _ (by simp [sent,engineStep]) (.idle rfl) (.idle rfl))
      | roll random => exact observe_kept w _ [] false false kept (silent_answered _ _ (by simp [sent,engineStep]) (inHand_kept rfl rfl) (inHand_kept rfl rfl))
      | announceBoot cause nowMs => exact observe_kept w _ [] false false kept (aloof_answered (announceBoot_aloof mac ops w.engine cause nowMs) _ _)
      | notePhyRevert cause => exact observe_kept w _ [] false false kept (untouched_answered _ _ _ _ _ ⟨⟨rfl,rfl,rfl⟩,rfl,rfl⟩)
      | tune tunings => exact observe_kept w _ [] false false kept (untouched_answered _ _ _ _ _ (tune_untouched w.engine tunings))
      | board phy => exact observe_kept w _ [] false false kept (untouched_answered _ _ _ _ _ ⟨⟨rfl,rfl,rfl⟩,rfl,rfl⟩)
      | transmit => exact observe_kept w _ [] false false kept (silent_answered _ _ (by simp [sent,engineStep]) (inHand_kept rfl rfl) (inHand_kept rfl rfl))

theorem run_kept (c : Context) (random : RandomFn) (phy : PhyTrial) (app : σ) (run : List (Input σ)) :
    Kept (run.foldl (step mac ops) (start c random phy app)) := by
  refine List.foldlRecOn run _ ?_ fun w kept i _ => step_kept mac ops w i kept
  exact ⟨(fun never => by cases never),(fun never => by cases never),by simp [start],by simp [start]⟩

-- A frame moves the context by a roll alone, and a roll is taken only while nothing in the gate is in flight.
theorem moved_settled (n : Engine σ) (buf : Bytes) (random : RandomFn) (nowMs : UInt32)
    (moved : (n.receive mac ops buf random nowMs).ctx.ctxId ≠ n.ctx.ctxId) : n.ctx.gate.anyInFlight = false := by
  rcases receive_cases mac ops n buf random nowMs with counted | ⟨m,why,counted,_,refused⟩ | ⟨m,payload,fragments,counted,_,_,delivered⟩
  · exact absurd (congrArg Core.ctxId counted.core) moved
  · rw [refused] at moved
    obtain ⟨effect,_⟩ := refuseAuthenticated_refuses mac ops m (readHeader buf) why
    exact absurd (congrArg Core.ctxId (effect.core.trans counted.core)) moved
  · rw [delivered] at moved
    by_cases isCommand : (readHeader buf).type = .command
    · obtain ⟨P,core,made,outcome,effect⟩ :=
        Served.after m (deliver_served mac ops m _ payload fragments random nowMs isCommand) counted.still counted.core
      have context := congrArg Core.ctxId effect.core
      cases outcome with
      | rolled cmd next _ _ settled => exact settled
      | quiet => exact absurd context moved
      | refused => exact absurd context moved
      | cached => exact absurd context moved
      | busy => exact absurd context moved
      | deferred => exact absurd context moved
      | executed => exact absurd context moved
    · by_cases isHexReq : (readHeader buf).type = .hexReq
      · obtain ⟨P,core,h,made,outcome,effect,_⟩ :=
          HexServed.after m (deliver_hexServed mac ops m _ payload fragments random nowMs isHexReq) counted.still counted.core counted.transaction
        have context := congrArg Core.ctxId effect.core
        cases outcome <;> exact absurd context moved
      · have aloof := deliver_aloof mac ops m _ payload fragments random nowMs isCommand isHexReq
        exact absurd (aloof.bystander.ctxId.trans (congrArg Core.ctxId counted.core)) moved

-- In every run, an ACK of finish_command reports a COMMAND its gate accepted with the same seq and a HEX_RSP answers a
-- HEX_REQ that was heard with the same seq, both in the reply's own context unless a roll was taken under the work.
theorem replies_report_requests (c : Context) (random : RandomFn) (phy : PhyTrial) (app : σ) (run : List (Input σ)) :
    let w := run.foldl (step mac ops) (start c random phy app)
    (∀ r ∈ w.finished, ∃ request ∈ w.accepted, request.seq = r.seq ∧ (r.rolled = false → request.ctxId = r.ctxId)) ∧
      (∀ r ∈ w.responses, ∃ request ∈ w.requested, request.seq = r.seq ∧ (r.rolled = false → request.ctxId = r.ctxId)) ∧
      ∀ buf random nowMs, (w.engine.receive mac ops buf random nowMs).ctx.ctxId ≠ w.engine.ctx.ctxId → w.engine.ctx.gate.anyInFlight = false := by
  intro w
  have kept := run_kept mac ops c random phy app run
  exact ⟨kept.finished,kept.responses,fun buf random nowMs => moved_settled mac ops w.engine buf random nowMs⟩

end

-- An application that answers neither a COMMAND nor a HEX_REQ at once.
def patient : Application Unit :=
  {CommandLink.obedient with
    capabilities := fun _ _ => capAnswersCommands ||| capAnswersHex
    execute := fun app _ _ _ => ({deferred := true},app)}

def node : Watch Unit := start {id := nodeGateLink} (fun _ => 10) {} ()

def framed (type : MsgType) (seq : Seq) (payload : Bytes) : Bytes :=
  match encode {type := type,src := nodeBridge,dst := nodeGateLink,ctxId := 10,seq := seq} payload ⟨some lengthMac,some zeroKey⟩ maxFrame with
  | .ok bytes => bytes
  | .error _ => []

def arrives (type : MsgType) (seq : Seq) (payload : Bytes) : Input Unit := .engine (.receive (framed type seq payload) (fun _ => 20) 0)

-- A read of the charger, and a roll before its device answered.
def rolledUnderRead : List (Input Unit) :=
  [arrives .hexReq 5 (HexReq.serialize {hex := [0x3A,0x37]}),arrives .command 1 (Command.serialize ⟨cmdRollContext,rollContextGuard,0⟩),
    .engine (.completeHex .ok [0x3A,0x37])]

-- A command whose entry a second one evicted, and a roll before it finished.
def rolledUnderCommand : List (Input Unit) :=
  [.engine (.tune [.cacheDepth 1]),arrives .command 1 (Command.serialize ⟨cmdOpen,0,0⟩),arrives .command 2 (Command.serialize ⟨cmdClose,0,0⟩),
    arrives .command 3 (Command.serialize ⟨cmdRollContext,rollContextGuard,0⟩),.engine (.finishCommand 0)]

theorem replies_leave_their_context :
    (let w := rolledUnderRead.foldl (step lengthMac patient) node
      ∃ r ∈ w.responses, ∀ request ∈ w.requested, request.ctxId ≠ r.ctxId) ∧
    (let w := rolledUnderCommand.foldl (step lengthMac patient) node
      ∃ r ∈ w.finished, ∀ request ∈ w.accepted, request.ctxId ≠ r.ctxId) := by
  decide +kernel

end LoraRan.System.AckContext
