import LoraRan.GateLink.TxGate
import LoraRan.System.OwedReports

namespace LoraRan.System.AwaitedReplies
open Protocol Node GateLink Library.StepSystem
open Library.LittleEndian (u8At)
open Authenticated (EngineInput engineStep)
open OwedReports (queued queued_append isEvent encoded_type)

-- What lora_task asks of its node. A push has a reason of its own, which is never POLL_RESPONSE.
inductive Input where
  | engine (input : EngineInput)
  | pollHex
  | pushStatus (reason : StatusReason) (unsolicited : reason ≠ .pollResponse) (nowMs : UInt32)
  | pushEvent (payload : Protocol.Bytes)
  | app (app : GateLinkApp)

def isPing (bytes : Protocol.Bytes) : Bool := u8At bytes 1 == MsgType.ping.code

section
variable (mac : Mac) (readings : GateLinkApp → UInt32 → GateLinkStatusV2) (event : GateLinkApp → EventType → UInt16 → UInt32 → Protocol.Bytes)

def ops : Application GateLinkApp := gateLinkOps ⟨statusPayload readings,event⟩

def step (n : Engine GateLinkApp) : Input → Engine GateLinkApp
  | .engine input => engineStep mac (ops readings event) n input
  | .pollHex => GateLink.pollHex mac n
  | .pushStatus reason _ nowMs => (n.sendStatus mac (ops readings event) nodeBridge reason nowMs).2
  | .pushEvent payload => (n.sendEvent mac nodeBridge payload schemaGateLinkEventV1).2
  | .app app => {n with app := app}

-- What a step queues. A received frame's answers are awaited, a PING's echo apart; a revert reported ahead of them is not, and neither is
-- a push or the boot announcement. Everything else a node queues is a late answer to a COMMAND or a HEX_REQ.
def Gated (n : Engine GateLinkApp) (input : Input) : Prop :=
  let frames := queued n (step mac readings event n input)
  match input with
  | .engine (.receive buf _ nowMs) => ∃ reports answers, frames = reports ++ answers ∧
      (∀ b ∈ reports, isEvent b = true ∧ replyAwaited b = false) ∧ (n.ctx.phyRevertDetail = 0 → reports = []) ∧
      (∀ b ∈ answers, replyAwaited b = true ∨ isPing b = true) ∧
      ((∀ m hdr payload fragments, Hands mac n buf nowMs m hdr payload fragments → hdr.type ≠ .ping) → ∀ b ∈ answers, replyAwaited b = true)
  | .engine (.announceBoot ..) | .pushStatus .. | .pushEvent .. => ∀ b ∈ frames, replyAwaited b = false
  | _ => ∀ b ∈ frames, replyAwaited b = true

-- No CONFIG_CHANGE is owed where the node is about to answer with a STATUS.
def NothingOwed (n : Engine GateLinkApp) : Input → Prop
  | .engine (.receive buf _ nowMs) => ∀ m hdr payload fragments, Hands mac n buf nowMs m hdr payload fragments →
      RequestsStatus (ops readings event) m hdr payload nowMs → n.ctx.configChangeOwed = false
  | .engine (.finishCommand _) | .engine (.finishCommandWith ..) => FinishesWithStatus n → n.ctx.configChangeOwed = false
  | _ => True

end

def Awaits (hdr : Header) (payload : Protocol.Bytes) : Prop :=
  ∀ ctx bytes, encode hdr payload ctx maxFrame = .ok bytes → replyAwaited bytes = true

def Stays (hdr : Header) (payload : Protocol.Bytes) : Prop :=
  ∀ ctx bytes, encode hdr payload ctx maxFrame = .ok bytes → replyAwaited bytes = false

def Answering (hdr : Header) (payload : Protocol.Bytes) : Prop := Awaits hdr payload ∨ hdr.type = .ping

section
variable {mac : Mac} {readings : GateLinkApp → UInt32 → GateLinkStatusV2} {event : GateLinkApp → EventType → UInt16 → UInt32 → Protocol.Bytes}

theorem tells_reason (reason : StatusReason) (app : GateLinkApp) (nowMs : UInt32) (hdr : Header) (typed : hdr.type = .status)
    (schema : hdr.schema = schemaGateLinkStatusV2) (ctx : EncodeCtx) (bytes : Protocol.Bytes)
    (encoded : encode hdr (statusPayload readings app reason nowMs) ctx maxFrame = .ok bytes) :
    replyAwaited bytes = (reason == .pollResponse) := by
  obtain ⟨length,told⟩ := statusPayload_reason readings app reason nowMs
  rw [status_awaited encoded typed schema (by omega),told,Bool.eq_iff_iff,beq_iff_eq,beq_iff_eq]
  exact statusReasonCode_zero reason

theorem build_status (app : GateLinkApp) (c : Context) (reason : StatusReason) (nowMs : UInt32) :
    (ops readings event).buildStatus app c reason nowMs = ((statusPayload readings app reason nowMs,schemaGateLinkStatusV2),app) := rfl

theorem poll_awaits : Tells (ops readings event) Awaits .pollResponse := by
  intro app c nowMs hdr typed schema ctx bytes encoded
  rw [build_status] at schema encoded
  exact tells_reason .pollResponse app nowMs hdr typed schema ctx bytes encoded

theorem other_stays (reason : StatusReason) (unsolicited : reason ≠ .pollResponse) : Tells (ops readings event) Stays reason := by
  intro app c nowMs hdr typed schema ctx bytes encoded
  rw [build_status] at schema encoded
  rw [tells_reason reason app nowMs hdr typed schema ctx bytes encoded]
  exact beq_eq_false_iff_ne.mpr unsolicited

theorem event_stays (hdr : Header) (payload : Protocol.Bytes) (typed : hdr.type = .event) : Stays hdr payload :=
  fun _ _ encoded => not_awaited_of_event encoded typed

theorem awaited_voices : Voices (ops readings event) False Awaits where
  ack _ _ typed _ _ encoded := awaited_of_ack encoded (.inl typed)
  configAck _ _ typed _ _ encoded := awaited_of_ack encoded (.inr (.inl typed))
  hexRsp _ _ typed _ _ encoded := awaited_of_ack encoded (.inr (.inr typed))
  status := poll_awaits
  change := False.elim

theorem answering_voices : Voices (ops readings event) False Answering := by
  have voices : Voices (ops readings event) False Awaits := awaited_voices
  refine ⟨fun hdr payload typed => .inl (voices.ack hdr payload typed),fun hdr payload typed => .inl (voices.configAck hdr payload typed),
    fun hdr payload typed => .inl (voices.hexRsp hdr payload typed),?_,False.elim⟩
  exact fun app ctx nowMs hdr typed schema => .inl (voices.status app ctx nowMs hdr typed schema)

-- A POLL is answered with a STATUS, and a readback if it asks for one; a PING with its echo.
theorem poll_answers (app : GateLinkApp) (ctx : Context) (hdr : Header) (payload : Protocol.Bytes) (nowMs : UInt32) (list : List Answer)
    (answered : ((ops readings event).onPoll app ctx hdr payload nowMs).1 = some list) : ∀ a ∈ list, Says (ops readings event) Awaits a := by
  obtain rfl := Option.some.inj answered
  intro a member
  rcases List.mem_cons.mp member with rfl | readback
  · exact poll_awaits
  · rw [List.mem_singleton.mp (List.mem_ite_nil_right.mp readback).2]
    trivial

theorem ping_answers (app : GateLinkApp) (ctx : Context) (hdr : Header) (payload : Protocol.Bytes) (fragments : UInt8) (nowMs : UInt32)
    (list : List Answer) (answered : ((ops readings event).onPing app ctx hdr payload fragments nowMs).1 = some list) :
    ∀ a ∈ list, Says (ops readings event) Answering a := by
  intro a member
  simp only [ops,gateLinkOps] at answered
  split at answered
  · obtain rfl := Option.some.inj answered
    rw [List.mem_singleton.mp member]
    exact fun _ _ typed => .inr typed
  · cases answered

theorem says_answering (a : Answer) (says_awaits : Says (ops readings event) Awaits a) : Says (ops readings event) Answering a := by
  cases a with
  | configReadback dst => trivial
  | status dst reason => exact fun app ctx nowMs hdr typed schema => .inl (says_awaits app ctx nowMs hdr typed schema)
  | statusFrame dst schema payload => exact fun hdr typed schemed => .inl (says_awaits hdr typed schemed)
  | echo dst seq payload chunk => exact fun hdr piece typed => .inl (says_awaits hdr piece typed)

theorem awaited_answers (type : MsgType) (asks : type ≠ .ping) : AdmitsAnswers (ops readings event) Awaits type :=
  ⟨fun _ app ctx hdr payload nowMs list answered => poll_answers app ctx hdr payload nowMs list answered,fun is => absurd is asks⟩

theorem answering_answers (type : MsgType) : AdmitsAnswers (ops readings event) Answering type :=
  ⟨fun _ app ctx hdr payload nowMs list answered a member => says_answering a (poll_answers app ctx hdr payload nowMs list answered a member),
    fun _ app ctx hdr payload fragments nowMs list answered => ping_answers app ctx hdr payload fragments nowMs list answered⟩

-- What `Owes` says of the frames a step queued.
variable (readings event) in
theorem Owes.awaited {n n' : Engine GateLinkApp} (owes : Owes mac (ops readings event) Awaits n n') : ∀ b ∈ queued n n', replyAwaited b = true := by
  obtain ⟨frames,outbox,said,_⟩ := owes.outbox
  rw [queued_append n n' frames outbox]
  intro b member
  obtain ⟨hdr,payload,awaits,encoded⟩ := said b member
  exact awaits _ b encoded

variable (readings event) in
theorem Owes.stays {n n' : Engine GateLinkApp} (owes : Owes mac (ops readings event) Stays n n') : ∀ b ∈ queued n n', replyAwaited b = false := by
  obtain ⟨frames,outbox,said,_⟩ := owes.outbox
  rw [queued_append n n' frames outbox]
  intro b member
  obtain ⟨hdr,payload,stays,encoded⟩ := said b member
  exact stays _ b encoded

variable (readings event) in
theorem Owes.answering {n n' : Engine GateLinkApp} (owes : Owes mac (ops readings event) Answering n n') :
    ∀ b ∈ queued n n', replyAwaited b = true ∨ isPing b = true := by
  obtain ⟨frames,outbox,said,_⟩ := owes.outbox
  rw [queued_append n n' frames outbox]
  intro b member
  obtain ⟨hdr,payload,answering,encoded⟩ := said b member
  rcases answering with awaits | ping
  · exact .inl (awaits _ b encoded)
  · right
    rw [isPing,encoded_type hdr payload _ _ b encoded,ping]
    exact beq_self_eq_true _

theorem payRefusal_keeps (n : Engine GateLinkApp) : Keeps mac (ops readings event) Awaits n (payRefusal mac n) := by
  unfold payRefusal
  split
  · exact Keeps.refl n
  · rename_i status _
    let paid : Engine GateLinkApp := {n with app := {n.app with hexRefusal := none}}
    have paying : Keeps mac (ops readings event) Awaits n paid := Keeps.quiet _ _ rfl rfl rfl rfl rfl
    exact paying.trans (completeHex_keeps mac (ops readings event) awaited_voices paid status [])

theorem takeAnswer_keeps (n : Engine GateLinkApp) : Keeps mac (ops readings event) Awaits n (takeAnswer mac n) := by
  unfold takeAnswer
  split
  · exact Keeps.refl n
  · rename_i r _
    let taken : Engine GateLinkApp := {n with app := {n.app with port := {n.app.port with answer := none}}}
    have taking : Keeps mac (ops readings event) Awaits n taken := Keeps.quiet _ _ rfl rfl rfl rfl rfl
    dsimp only
    split
    · exact Keeps.quiet _ _ rfl rfl rfl rfl rfl
    · exact taking.trans (completeHex_keeps mac (ops readings event) awaited_voices taken r.status r.hex)

theorem pollHex_owes (n : Engine GateLinkApp) : Owes mac (ops readings event) Awaits n (GateLink.pollHex mac n) :=
  ((payRefusal_keeps n).trans (takeAnswer_keeps (payRefusal mac n))).owes

-- A handed-over payload: the report of an owed revert, and the answer.
theorem deliver_gated (n m : Engine GateLinkApp) (same : SameSends n m) (hdr : Header) (payload : Protocol.Bytes) (fragments : UInt8)
    (random : RandomFn) (nowMs : UInt32)
    (paid : RequestsStatus (ops readings event) m hdr payload nowMs → n.ctx.configChangeOwed = false) :
    ∃ reports answers, queued n (m.deliver mac (ops readings event) hdr payload fragments random nowMs) = reports ++ answers ∧
      (∀ b ∈ reports, isEvent b = true ∧ replyAwaited b = false) ∧ (n.ctx.phyRevertDetail = 0 → reports = []) ∧
      (∀ b ∈ answers, replyAwaited b = true ∨ isPing b = true) ∧ (hdr.type ≠ .ping → ∀ b ∈ answers, replyAwaited b = true) := by
  have allowed : RequestsStatus (ops readings event) m hdr payload nowMs → m.ctx.configChangeOwed = true → False := by
    intro requests on
    rw [same.owed,paid requests] at on
    cases on
  by_cases heard : hdr.src = nodeBridge ∧ m.ctx.phyRevertDetail ≠ 0
  · let reported := (m.serve hdr payload).sendPhyReverted mac (ops readings event) hdr.src nowMs
    let IsReport : Header → Protocol.Bytes → Prop := fun h p => h.type = .event
    have posts : Posts mac (ops readings event) IsReport (m.serve hdr payload).clearRevert reported :=
      sendPhyReverted_posts mac _ _ hdr.src nowMs fun _ _ typed => typed
    have answering := deliver_reverted mac (ops readings event) answering_voices m hdr (answering_answers hdr.type) payload fragments random
      nowMs heard allowed
    obtain ⟨reports,first,told,_⟩ := posts.keeps.owes.outbox
    obtain ⟨answers,later,_⟩ := answering.owes.outbox
    have whole : queued n (m.deliver mac (ops readings event) hdr payload fragments random nowMs) = reports ++ answers := by
      apply queued_append
      have start : (m.serve hdr payload).clearRevert.outbox = n.outbox := same.outbox
      rw [later,first,start,List.append_assoc]
    have split_at : queued reported (m.deliver mac (ops readings event) hdr payload fragments random nowMs) = answers :=
      queued_append _ _ answers later
    refine ⟨reports,answers,whole,?_,?_,?_,?_⟩
    · intro b member
      obtain ⟨h,p,typed,encoded⟩ := told b member
      refine ⟨?_,not_awaited_of_event encoded typed⟩
      rw [isEvent,encoded_type h p _ _ b encoded,typed]
      exact beq_self_eq_true _
    · intro none
      exact absurd (same.revert.trans none) heard.2
    · rw [← split_at]
      exact Owes.answering readings event answering.owes
    · intro asks
      rw [← split_at]
      exact Owes.awaited readings event (deliver_reverted mac (ops readings event) awaited_voices m hdr (awaited_answers hdr.type asks) payload fragments random
        nowMs heard allowed).owes
  · have answering := deliver_keeps mac (ops readings event) answering_voices m hdr (answering_answers hdr.type) payload fragments random nowMs
      heard allowed
    have moved : queued n (m.deliver mac (ops readings event) hdr payload fragments random nowMs) =
        queued m (m.deliver mac (ops readings event) hdr payload fragments random nowMs) := by
      rw [queued,queued,same.outbox]
    refine ⟨[],_,moved,fun b member => (by cases member),fun _ => rfl,Owes.answering readings event answering.owes,?_⟩
    · intro asks
      exact Owes.awaited readings event (deliver_keeps mac (ops readings event) awaited_voices m hdr (awaited_answers hdr.type asks) payload fragments random
        nowMs heard allowed).owes

theorem quiet_awaited (n n' : Engine GateLinkApp) (outbox : n'.outbox = n.outbox) : ∀ b ∈ queued n n', replyAwaited b = true := by
  rw [queued_append n n' [] (by rw [outbox,List.append_nil])]
  exact fun _ member => (by cases member)

theorem step_gated (n : Engine GateLinkApp) (input : Input) (nothing : NothingOwed mac readings event n input) :
    Gated mac readings event n input := by
  have voices : Voices (ops readings event) False Awaits := awaited_voices
  have paid_first (settled : FinishesWithStatus n → n.ctx.configChangeOwed = false) :
      FinishesWithStatus n → n.ctx.configChangeOwed = true → False := by
    intro finishes on
    rw [settled finishes] at on
    cases on
  cases input with
  | pollHex => exact Owes.awaited readings event (pollHex_owes n)
  | app app => exact quiet_awaited _ _ rfl
  | pushStatus reason unsolicited nowMs =>
    exact Owes.stays readings event (sendStatus_keeps mac (ops readings event) n nodeBridge reason nowMs (other_stays reason unsolicited)
      fun polled => absurd polled unsolicited).owes
  | pushEvent payload =>
    exact Owes.stays readings event (sendEvent_posts mac (ops readings event) n nodeBridge payload schemaGateLinkEventV1
      fun hdr typed _ => event_stays hdr payload typed).keeps.owes
  | engine input =>
    cases input with
    | receive buf random nowMs =>
      rcases receive_owes mac (ops readings event) voices n buf random nowMs with ⟨m,hdr,payload,fragments,hands,received⟩ | owes
      · obtain ⟨reports,answers,whole,told,silent,either,asked⟩ := deliver_gated n m hands.same hdr payload fragments random nowMs
          (nothing m hdr payload fragments hands)
        refine ⟨reports,answers,?_,told,silent,either,fun asks => asked (asks m hdr payload fragments hands)⟩
        rw [← whole,← received]
        rfl
      · exact ⟨[],_,rfl,fun b member => (by cases member),fun _ => rfl,fun b member => .inl (Owes.awaited readings event owes b member),
          fun _ => Owes.awaited readings event owes⟩
    | announceBoot cause nowMs =>
      exact Owes.stays readings event (announceBoot_keeps mac (ops readings event) n cause nowMs (other_stays .boot (by decide)) event_stays).owes
    | tick nowMs => exact Owes.awaited readings event (tick_keeps mac _ voices n nowMs).owes
    | finishCommand nowMs =>
      exact Owes.awaited readings event (finishCommand_keeps mac _ voices n nowMs (paid_first nothing)).owes
    | finishCommandWith nowMs result =>
      let replaced : Engine GateLinkApp := {n with ctx := {n.ctx with pending := {n.ctx.pending with result := result,detail := 0}}}
      have finished : Keeps mac (ops readings event) Awaits replaced (replaced.finishCommand mac (ops readings event) nowMs) :=
        finishCommand_keeps mac _ voices replaced nowMs (paid_first nothing)
      have replacing : Owes mac (ops readings event) Awaits n replaced := Owes.quiet _ _ rfl rfl rfl rfl
      exact Owes.awaited readings event (replacing.trans finished.owes)
    | completeHex status hex => exact Owes.awaited readings event (completeHex_keeps mac _ voices n status hex).owes
    | reset random => exact quiet_awaited _ _ rfl
    | roll random => exact quiet_awaited _ _ rfl
    | notePhyRevert cause => exact quiet_awaited _ _ rfl
    | tune tunings => exact Owes.awaited readings event (tune_keeps mac _ n tunings).owes
    | board phy => exact quiet_awaited _ _ rfl
    | transmit =>
      have none : queued n (step mac readings event n (.engine .transmit)) = [] := by
        apply List.drop_eq_nil_of_le
        change (n.outbox.drop 1).length ≤ _
        rw [List.length_drop]
        exact Nat.sub_le _ _
      intro b member
      change b ∈ queued n (step mac readings event n (.engine .transmit)) at member
      rw [none] at member
      cases member

-- In a run whose every STATUS answer finds no CONFIG_CHANGE owed, each step's frames are waited for or not as the bridge waits for them; and
-- one it waits for never waits a window out.
theorem replies_never_held (mac : Mac) (readings : GateLinkApp → UInt32 → GateLinkStatusV2)
    (event : GateLinkApp → EventType → UInt16 → UInt32 → Protocol.Bytes) (start : Engine GateLinkApp) (inputs : List Input)
    (settled : Follows (step mac readings event) (NothingOwed mac readings event) start inputs) :
    Follows (step mac readings event) (Gated mac readings event) start inputs ∧
      ∀ frame, replyAwaited frame = true → ∀ bleHolds windowMs capMs, txGate bleHolds windowMs capMs (replyAwaited frame) ≠ .wait := by
  refine ⟨?_,fun frame awaited bleHolds windowMs capMs => awaited_never_waits bleHolds windowMs capMs frame awaited⟩
  induction inputs generalizing start with
  | nil => trivial
  | cons input rest ih => exact ⟨step_gated start input settled.1,ih _ settled.2⟩

end

def blank : GateLinkApp → UInt32 → GateLinkStatusV2 := fun _ _ => {}

def quiet : GateLinkApp → EventType → UInt16 → UInt32 → Protocol.Bytes := eventPayload fun _ => {}

def node : Engine GateLinkApp := {ctx := resetContext {id := nodeGateLink} fun _ => 10,app := {}}

def polled : Input := .engine (.receive pollFrame (fun _ => 20) 0)

theorem replies_never_held_polled :
    Follows (step lengthMac blank quiet) (Gated lengthMac blank quiet) node [polled,.pushStatus .fire (by decide) 5] :=
  (replies_never_held lengthMac blank quiet node [polled,.pushStatus .fire (by decide) 5] ⟨fun _ _ _ _ _ _ => rfl,trivial,trivial⟩).1

def reverted : Engine GateLinkApp := node.notePhyRevert .window

-- Behind the PHY_REVERTED, the STATUS that answers a POLL carries the CONFIG_CHANGE owed since a revert, and is not one the radio stops a
-- window for.
theorem change_report_waits :
    ¬ ∀ inputs, Follows (step lengthMac blank quiet) (fun _ _ => True) node inputs →
      Follows (step lengthMac blank quiet) (Gated lengthMac blank quiet) node inputs := by
  intro gated
  obtain ⟨_,⟨reports,answers,whole,told,_,either,_⟩,_⟩ := gated [.engine (.notePhyRevert .window),polled] ⟨trivial,trivial,trivial⟩
  have frames : (queued reverted (step lengthMac blank quiet reverted polled)).length = 2 ∧
      (queued reverted (step lengthMac blank quiet reverted polled)).any (fun b => !replyAwaited b && !isEvent b && !isPing b) = true := by
    decide +kernel
  change queued reverted (step lengthMac blank quiet reverted polled) = reports ++ answers at whole
  rw [whole] at frames
  obtain ⟨b,here,waits⟩ := List.any_eq_true.mp frames.2
  simp only [Bool.and_eq_true,Bool.not_eq_true'] at waits
  rcases List.mem_append.mp here with report | answer
  · rw [(told b report).1] at waits
    cases waits.1.2
  · rcases either b answer with awaited | ping
    · rw [awaited] at waits
      cases waits.1.1
    · rw [ping] at waits
      cases waits.2

end LoraRan.System.AwaitedReplies
