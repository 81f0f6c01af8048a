import LoraRan.Node.Handover
import LoraRan.Node.SendWhole
import LoraRan.System.Authenticated
import LoraRan.System.CommandLink

namespace LoraRan.System.OwedReports
open Protocol Node Library.StepSystem
open Library.LittleEndian (u8At)
open Authenticated (EngineInput engineStep)

-- What a context is asked to do: what the radio and the board ask of it, and the pushes of its application.
inductive Input (σ : Type) where
  | engine (input : EngineInput)
  | pushStatus (dst : NodeId) (reason : StatusReason) (nowMs : UInt32)
  | pushEvent (dst : NodeId) (payload : Protocol.Bytes) (schema : SchemaId)
  | app (app : σ)

def queued {σ : Type} (n n' : Engine σ) : List Protocol.Bytes := n'.outbox.drop n.outbox.length

def isEvent (bytes : Protocol.Bytes) : Bool := u8At bytes 1 == MsgType.event.code

-- The boot announcement and an application's push queue the EVENT their caller names. Any other EVENT is the engine's own.
def Input.names {σ : Type} : Input σ → Bool
  | .engine (.announceBoot ..) | .pushEvent .. => true
  | _ => false

section
variable {σ : Type} (mac : Mac) (ops : Application σ)

def step (n : Engine σ) : Input σ → Engine σ
  | .engine input => engineStep mac ops n input
  | .pushStatus dst reason nowMs => (n.sendStatus mac ops dst reason nowMs).2
  | .pushEvent dst payload schema => (n.sendEvent mac dst payload schema).2
  | .app app => {n with app := app}

-- A context, the reverts noted on it and the EVENTs its engine queued of its own, oldest first.
structure Ledger (σ : Type) where
  engine : Engine σ
  noted : List UInt16
  events : List Protocol.Bytes := []

def owing (detail : UInt16) : List UInt16 := if detail = 0 then [] else [detail]

def Input.notes : Input σ → List UInt16
  | .engine (.notePhyRevert cause) => [cause.code]
  | _ => []

def record (s : Ledger σ) (input : Input σ) : Ledger σ where
  engine := step mac ops s.engine input
  noted := s.noted ++ input.notes
  events := s.events ++ if input.names then [] else (queued s.engine (step mac ops s.engine input)).filter isEvent

def opened (n : Engine σ) : Ledger σ := {engine := n,noted := owing n.ctx.phyRevertDetail}

-- Every revert noted has its PHY_REVERTED queued, exactly one and in the order they were noted, or is still owed.
def Accounted (s : Ledger σ) : Prop :=
  ∃ told, s.noted = told ++ owing s.engine.ctx.phyRevertDetail ∧ List.Forall₂ (RevertReport mac ops s.engine.ctx.key) told s.events

-- No revert is noted on top of one still owed, and a frame of the bridge's handed over with a revert owed finds a slot for the
-- report and an application whose EVENT encodes.
def Reportable (s : Ledger σ) : Input σ → Prop
  | .engine (.notePhyRevert cause) => cause ≠ .none ∧ s.engine.ctx.phyRevertDetail = 0
  | .engine (.receive buf _ nowMs) => ∀ m hdr payload fragments, Hands mac s.engine buf nowMs m hdr payload fragments →
      hdr.src = nodeBridge → s.engine.ctx.phyRevertDetail ≠ 0 → CanReport mac ops (m.serve hdr payload) hdr.src nowMs
  | _ => True

def Plain (hdr : Header) (_ : Protocol.Bytes) : Prop := hdr.type ≠ .event

variable {mac ops} {P : Header → Protocol.Bytes → Prop} {C : Prop}

theorem encoded_type (hdr : Header) (payload : Protocol.Bytes) (ctx : EncodeCtx) (cap : Nat) (bytes : Protocol.Bytes)
    (encoded : encode hdr payload ctx cap = .ok bytes) : u8At bytes 1 = hdr.type.code := by
  obtain ⟨_,_,_,_,rfl⟩ := encode_parts hdr payload ctx cap bytes encoded
  rfl

theorem plain_voices : Voices ops True Plain where
  ack _ _ typed := by rw [Plain,typed]; exact MsgType.noConfusion
  configAck _ _ typed := by rw [Plain,typed]; exact MsgType.noConfusion
  hexRsp _ _ typed := by rw [Plain,typed]; exact MsgType.noConfusion
  status _ _ _ _ typed _ := by rw [Plain,typed]; exact MsgType.noConfusion
  change _ _ _ _ _ typed _ := by rw [Plain,typed]; exact MsgType.noConfusion

theorem plain_tells (reason : StatusReason) : Tells ops Plain reason := by
  intro _ _ _ hdr typed _
  rw [Plain,typed]
  exact MsgType.noConfusion

theorem plain_says (a : Answer) : Says ops Plain a := by
  cases a with
  | status dst reason => exact plain_tells reason
  | configReadback dst => trivial
  | statusFrame dst schema payload =>
    intro hdr typed _
    rw [Plain,typed]
    exact MsgType.noConfusion
  | echo dst seq payload chunk =>
    intro hdr _ typed
    rw [Plain,typed]
    exact MsgType.noConfusion

theorem plain_answers (type : MsgType) : AdmitsAnswers ops Plain type where
  poll _ _ _ _ _ _ _ _ a _ := plain_says a
  ping _ _ _ _ _ _ _ _ _ a _ := plain_says a

theorem all_voices : Voices ops True fun _ _ => True :=
  ⟨fun _ _ _ => trivial,fun _ _ _ => trivial,fun _ _ _ => trivial,fun _ _ _ _ _ _ => trivial,fun _ _ _ _ _ _ _ => trivial⟩

theorem all_says (a : Answer) : Says ops (fun _ _ => True) a := by
  cases a with
  | configReadback dst => trivial
  | status dst reason => exact fun _ _ _ _ _ _ => trivial
  | statusFrame dst schema payload => exact fun _ _ _ => trivial
  | echo dst seq payload chunk => exact fun _ _ _ => trivial

-- Every request but a received frame, a noted revert and a transmission.
def Input.inner : Input σ → Bool
  | .engine (.receive ..) | .engine (.notePhyRevert _) | .engine .transmit => false
  | _ => true

variable (mac ops) in
theorem inner_owes (voices : Voices ops C P) (n : Engine σ) (input : Input σ) (inner : input.inner = true)
    (tells : ∀ reason, Tells ops P reason) (admits : input.names = true → ∀ hdr payload, hdr.type = .event → P hdr payload)
    (allowed : FinishesWithStatus n → n.ctx.configChangeOwed = true → C) : Owes mac ops P n (step mac ops n input) := by
  cases input with
  | engine input =>
    cases input with
    | receive buf random nowMs => cases inner
    | notePhyRevert cause => cases inner
    | transmit => cases inner
    | tick nowMs => exact (tick_keeps mac ops voices n nowMs).owes
    | finishCommand nowMs => exact (finishCommand_keeps mac ops voices n nowMs allowed).owes
    | finishCommandWith nowMs result =>
      let replaced : Engine σ := {n with ctx := {n.ctx with pending := {n.ctx.pending with result := result,detail := 0}}}
      have replacing : Owes mac ops P n replaced := Owes.quiet _ _ rfl rfl rfl rfl
      exact replacing.trans (finishCommand_keeps mac ops voices replaced nowMs allowed).owes
    | completeHex status hex => exact (completeHex_keeps mac ops voices n status hex).owes
    | reset random => exact Owes.quiet _ _ rfl rfl rfl rfl
    | roll random => exact Owes.quiet _ _ rfl rfl rfl rfl
    | announceBoot cause nowMs => exact (announceBoot_keeps mac ops n cause nowMs (tells .boot) (admits rfl)).owes
    | tune tunings => exact (tune_keeps mac ops n tunings).owes
    | board phy => exact Owes.quiet _ _ rfl rfl rfl rfl
  | pushStatus dst reason nowMs =>
    exact (sendStatus_keeps mac ops n dst reason nowMs (tells reason) fun _ _ => tells .configChange).owes
  | pushEvent dst payload schema =>
    exact (sendEvent_posts mac ops (P := P) n dst payload schema fun hdr typed _ => admits rfl hdr payload typed).keeps.owes
  | app app => exact Owes.quiet _ _ rfl rfl rfl rfl

theorem queued_append (n n' : Engine σ) (frames : List Protocol.Bytes) (outbox : n'.outbox = n.outbox ++ frames) : queued n n' = frames := by
  rw [queued,outbox,List.drop_left]

theorem plain_filter (key : NodeKey) (frames : List Protocol.Bytes)
    (plain : ∀ bytes ∈ frames, ∃ hdr payload, Plain hdr payload ∧ encode hdr payload {mac := some mac,nodeKey := some key} maxFrame = .ok bytes) :
    frames.filter isEvent = [] := by
  rw [List.filter_eq_nil_iff]
  intro bytes member event
  obtain ⟨hdr,payload,notEvent,encoded⟩ := plain bytes member
  have code : hdr.type.code = MsgType.event.code := by
    rw [← encoded_type hdr payload _ _ bytes encoded]
    exact beq_iff_eq.mp event
  apply notEvent
  rw [← ofCode_code hdr.type,code,ofCode_code]

theorem report_isEvent (key : NodeKey) (detail : UInt16) (bytes : Protocol.Bytes) (report : RevertReport mac ops key detail bytes) :
    isEvent bytes = true := by
  obtain ⟨_,_,_,hdr,typed,_,encoded⟩ := report
  rw [isEvent,encoded_type hdr _ _ _ bytes encoded,typed]
  exact beq_self_eq_true _

theorem Owes.no_event {n n' : Engine σ} (owes : Owes mac ops Plain n n') : (queued n n').filter isEvent = [] := by
  obtain ⟨frames,outbox,plain,_⟩ := owes.outbox
  rw [queued_append n n' frames outbox]
  exact plain_filter n.ctx.key frames plain

-- What a received frame does to a noted revert: nothing, or it queues the one EVENT that reports it.
inductive Heard (mac : Mac) (ops : Application σ) (n n' : Engine σ) : Prop
  | silent (revert : n'.ctx.phyRevertDetail = n.ctx.phyRevertDetail) (events : (queued n n').filter isEvent = [])
  | reported (noted : n.ctx.phyRevertDetail ≠ 0) (cleared : n'.ctx.phyRevertDetail = 0) (bytes : Protocol.Bytes)
      (events : (queued n n').filter isEvent = [bytes]) (report : RevertReport mac ops n.ctx.key n.ctx.phyRevertDetail bytes)

theorem receive_heard (n : Engine σ) (buf : Protocol.Bytes) (random : RandomFn) (nowMs : UInt32)
    (reportable : ∀ m hdr payload fragments, Hands mac n buf nowMs m hdr payload fragments → hdr.src = nodeBridge →
      n.ctx.phyRevertDetail ≠ 0 → CanReport mac ops (m.serve hdr payload) hdr.src nowMs) :
    (n.receive mac ops buf random nowMs).ctx.key = n.ctx.key ∧ Heard mac ops n (n.receive mac ops buf random nowMs) := by
  rcases receive_owes mac ops plain_voices n buf random nowMs with ⟨m,hdr,payload,fragments,hands,received⟩ | owes
  · rw [received]
    have same := hands.same
    by_cases heard : hdr.src = nodeBridge ∧ m.ctx.phyRevertDetail ≠ 0
    · have noted : n.ctx.phyRevertDetail ≠ 0 := same.revert ▸ heard.2
      obtain ⟨bytes,outbox,report⟩ := sendPhyReverted_queues mac ops (m.serve hdr payload) hdr.src nowMs
        (reportable m hdr payload fragments hands heard.1 noted)
      have posts := (sendPhyReverted_posts mac ops (P := fun _ _ => True) (m.serve hdr payload) hdr.src nowMs fun _ _ _ => trivial).keeps
      have keeps := deliver_reverted mac ops plain_voices m hdr (plain_answers hdr.type) payload fragments random nowMs heard fun _ _ => trivial
      obtain ⟨frames,later,plain,_⟩ := keeps.owes.outbox
      have all : queued n (m.deliver mac ops hdr payload fragments random nowMs) = bytes :: frames := by
        apply queued_append
        rw [later,outbox,← same.outbox,List.append_assoc]
        rfl
      refine ⟨keeps.owes.key.trans (posts.owes.key.trans same.key),.reported noted (keeps.owes.revert.trans posts.owes.revert) bytes ?_ ?_⟩
      · rw [all,List.filter_cons_of_pos (report_isEvent _ _ bytes report),plain_filter _ frames plain]
      · rw [← same.key,← same.revert]
        exact report
    · have keeps := deliver_keeps mac ops plain_voices m hdr (plain_answers hdr.type) payload fragments random nowMs heard fun _ _ => trivial
      refine ⟨keeps.owes.key.trans same.key,.silent (keeps.owes.revert.trans same.revert) ?_⟩
      have events := Owes.no_event keeps.owes
      rw [queued,same.outbox] at events
      exact events
  · exact ⟨owes.key,.silent owes.revert (Owes.no_event owes)⟩

theorem deliver_tells (m : Engine σ) (hdr : Header) (payload : Protocol.Bytes) (fragments : UInt8) (random : RandomFn) (nowMs : UInt32)
    (on : m.ctx.configChangeOwed = true) (off : (m.deliver mac ops hdr payload fragments random nowMs).ctx.configChangeOwed = false) :
    ∃ bytes ∈ queued m (m.deliver mac ops hdr payload fragments random nowMs), ChangeReport mac ops m.ctx.key bytes := by
  have answers : AdmitsAnswers ops (fun _ _ => True) hdr.type := ⟨fun _ _ _ _ _ _ _ _ a _ => all_says a,fun _ _ _ _ _ _ _ _ _ a _ => all_says a⟩
  by_cases heard : hdr.src = nodeBridge ∧ m.ctx.phyRevertDetail ≠ 0
  · have posts := sendPhyReverted_posts mac ops (P := fun _ _ => True) (m.serve hdr payload) hdr.src nowMs fun _ _ _ => trivial
    have keeps := deliver_reverted mac ops all_voices m hdr answers payload fragments random nowMs heard fun _ _ => trivial
    obtain ⟨first,outbox,_⟩ := posts.sends.outbox
    obtain ⟨rest,later,_,told⟩ := keeps.owes.outbox
    obtain ⟨bytes,member,report⟩ := told (posts.owed.trans on) off
    rw [posts.keeps.owes.key] at report
    refine ⟨bytes,?_,report⟩
    have whole := outbox ▸ later
    rw [queued_append m _ (first ++ rest) (whole.trans (List.append_assoc _ _ _))]
    exact List.mem_append_right first member
  · have keeps := deliver_keeps mac ops all_voices m hdr answers payload fragments random nowMs heard fun _ _ => trivial
    obtain ⟨frames,outbox,_,told⟩ := keeps.owes.outbox
    rw [queued_append m _ frames outbox]
    exact told on off

-- An owed CONFIG_CHANGE goes only with a frame that carries it.
theorem change_reported (n : Engine σ) (input : Input σ) (on : n.ctx.configChangeOwed = true)
    (off : (step mac ops n input).ctx.configChangeOwed = false) :
    ∃ bytes ∈ queued n (step mac ops n input), ChangeReport mac ops n.ctx.key bytes := by
  have settled (m : Engine σ) (owes : Owes mac ops (fun _ _ => True) n m) (paid : m.ctx.configChangeOwed = false) :
      ∃ bytes ∈ queued n m, ChangeReport mac ops n.ctx.key bytes := by
    obtain ⟨frames,outbox,_,told⟩ := owes.outbox
    rw [queued_append n m frames outbox]
    exact told on paid
  cases inner : input.inner with
  | true =>
    exact settled _ (inner_owes mac ops all_voices n input inner (fun _ _ _ _ _ _ _ => trivial) (fun _ _ _ _ => trivial) fun _ _ => trivial) off
  | false =>
    cases input with
    | engine input =>
      cases input with
      | receive buf random nowMs =>
        rcases receive_owes mac ops all_voices n buf random nowMs with ⟨m,hdr,payload,fragments,hands,received⟩ | owes
        · have same := hands.same
          have paid : (m.deliver mac ops hdr payload fragments random nowMs).ctx.configChangeOwed = false := received ▸ off
          have told := deliver_tells m hdr payload fragments random nowMs (same.owed.trans on) paid
          rw [queued,same.outbox,same.key,← received] at told
          exact told
        · exact settled _ owes off
      | notePhyRevert cause => cases off
      | transmit =>
        rw [show (step mac ops n (.engine .transmit)).ctx.configChangeOwed = true from on] at off
        cases off
      | _ => cases inner
    | _ => cases inner

theorem record_accounted (s : Ledger σ) (input : Input σ) (accounted : Accounted mac ops s) (reportable : Reportable mac ops s input) :
    Accounted mac ops (record mac ops s input) := by
  obtain ⟨told,noted,reports⟩ := accounted
  -- A step that leaves the revert alone and queues no EVENT of its own leaves the ledger as it is.
  have quiet (n' : Engine σ) (moved : step mac ops s.engine input = n') (key : n'.ctx.key = s.engine.ctx.key)
      (revert : n'.ctx.phyRevertDetail = s.engine.ctx.phyRevertDetail) (silent : input.notes = [])
      (events : input.names = false → (queued s.engine n').filter isEvent = []) : Accounted mac ops (record mac ops s input) := by
    refine ⟨told,?_,?_⟩
    · simp only [record,moved,silent,revert,List.append_nil,noted]
    · have none : (record mac ops s input).events = s.events := by
        simp only [record,moved]
        split
        · exact List.append_nil _
        · rename_i own
          rw [events (Bool.eq_false_iff.mpr own),List.append_nil]
      rw [none]
      simp only [record,moved,key]
      exact reports
  have inner_quiet (inner : input.inner = true) (silent : input.notes = []) : Accounted mac ops (record mac ops s input) := by
    cases named : input.names with
    | false =>
      have owes := inner_owes mac ops plain_voices s.engine input inner plain_tells (by rw [named]; intro never; cases never) fun _ _ => trivial
      exact quiet _ rfl owes.key owes.revert silent fun _ => Owes.no_event owes
    | true =>
      have owes := inner_owes mac ops all_voices s.engine input inner (fun _ _ _ _ _ _ _ => trivial)
        (fun _ _ _ _ => trivial) fun _ _ => trivial
      exact quiet _ rfl owes.key owes.revert silent (by rw [named]; intro never; cases never)
  cases input with
  | app app => exact inner_quiet rfl rfl
  | pushStatus dst reason nowMs => exact inner_quiet rfl rfl
  | pushEvent dst payload schema => exact inner_quiet rfl rfl
  | engine input =>
    cases input with
    | receive buf random nowMs =>
      obtain ⟨key,heard⟩ := receive_heard s.engine buf random nowMs reportable
      cases heard with
      | silent revert events => exact quiet _ rfl key revert rfl fun _ => events
      | reported owed cleared bytes events report =>
        refine ⟨told ++ [s.engine.ctx.phyRevertDetail],?_,?_⟩
        · change s.noted ++ [] = _ ++ owing (s.engine.receive mac ops buf random nowMs).ctx.phyRevertDetail
          rw [noted,cleared,owing,if_neg owed]
          simp [owing]
        · change List.Forall₂ (RevertReport mac ops (s.engine.receive mac ops buf random nowMs).ctx.key) _
            (s.events ++ (queued s.engine (s.engine.receive mac ops buf random nowMs)).filter isEvent)
          rw [key,events]
          exact List.rel_append reports (.cons report .nil)
    | notePhyRevert cause =>
      obtain ⟨real,free⟩ := reportable
      have code : cause.code ≠ 0 := by
        cases cause with
        | none => exact absurd rfl real
        | window => decide
        | reboot => decide
      refine ⟨told,?_,?_⟩
      · change s.noted ++ [cause.code] = told ++ owing cause.code
        rw [noted,free,owing,if_pos rfl,List.append_nil,owing,if_neg code]
      · change List.Forall₂ (RevertReport mac ops s.engine.ctx.key) told (s.events ++ (queued s.engine (s.engine.notePhyRevert cause)).filter isEvent)
        rw [queued_append s.engine (s.engine.notePhyRevert cause) [] (List.append_nil _).symm]
        exact (List.append_nil s.events).symm ▸ reports
    | transmit =>
      refine quiet _ rfl rfl rfl rfl fun _ => ?_
      have none : queued s.engine (step mac ops s.engine (.engine .transmit)) = [] := by
        apply List.drop_eq_nil_of_le
        change (s.engine.outbox.drop 1).length ≤ _
        rw [List.length_drop]
        exact Nat.sub_le _ _
      rw [none]
      rfl
    | _ => exact inner_quiet rfl rfl

-- A send queues the whole message in index order and counts it, or leaves the engine as it was; a CONFIG_CHANGE stays owed until a
-- frame that carries it is queued; and while every revert can be reported when the bridge is heard, each one noted has exactly one
-- PHY_REVERTED queued or is still owed.
theorem sends_whole_and_reports_kept (mac : Mac) (ops : Application σ) :
    (∀ (n : Engine σ) (hdr : Header) (payload : Protocol.Bytes) (chunk : UInt8),
      (∃ frames, Message {mac := some mac,nodeKey := some n.ctx.key} hdr payload chunk frames ∧
        n.send mac hdr payload chunk = (true,n.queue frames)) ∨ n.send mac hdr payload chunk = (false,n)) ∧
    (∀ (n : Engine σ) (input : Input σ), n.ctx.configChangeOwed = true → (step mac ops n input).ctx.configChangeOwed = false →
      ∃ bytes ∈ queued n (step mac ops n input), ChangeReport mac ops n.ctx.key bytes) ∧
    ∀ (n : Engine σ) (s : Ledger σ), Reached (record mac ops) (Reportable mac ops) (opened n) s → Accounted mac ops s := by
  refine ⟨send_whole_or_none mac,fun n input => change_reported n input,fun n s path => ?_⟩
  have initial : Accounted mac ops (opened n) := ⟨[],rfl,.nil⟩
  exact path.invariant (Accounted mac ops) initial record_accounted

end
-- An application with an EVENT to send.
def reporting : Application Unit :=
  {CommandLink.obedient with buildEvent := fun app _ _ _ _ => ((List.replicate 16 0,schemaGateLinkEventV1),app)}

def node (outbox : List Protocol.Bytes) : Engine Unit := {ctx := resetContext {id := nodeGateLink} fun _ => 10,outbox := outbox,app := ()}

def reverted : List (Input Unit) := [.engine (.notePhyRevert .window),.engine (.receive pollFrame (fun _ => 20) 0)]

-- With no slot left in the outbox, the revert the bridge's next frame should report is gone unreported.
theorem full_outbox_loses_revert :
    ¬ ∀ s, Reached (record lengthMac reporting) (fun _ _ => True) (opened (node (List.replicate outboxDepth []))) s →
      Accounted lengthMac reporting s := by
  intro kept
  let s := reverted.foldl (record lengthMac reporting) (opened (node (List.replicate outboxDepth [])))
  obtain ⟨told,noted,reports⟩ := kept s (Follows.reached ⟨trivial,trivial,trivial⟩)
  have owed : s.noted = [1] := by decide +kernel
  have cleared : s.engine.ctx.phyRevertDetail = 0 := by decide +kernel
  have silent : s.events = [] := by decide +kernel
  rw [owed,cleared,owing,if_pos rfl,List.append_nil] at noted
  rw [← noted,silent] at reports
  cases reports

theorem revert_reported_with_a_slot :
    Accounted lengthMac reporting (reverted.foldl (record lengthMac reporting) (opened (node []))) := by
  refine (sends_whole_and_reports_kept lengthMac reporting).2.2 (node []) _ (Follows.reached ⟨⟨by decide,rfl⟩,?_,trivial⟩)
  intro m hdr payload fragments hands heard _
  have admitted : Admissible ((node []).ctx.header .event nodeBridge schemaGateLinkEventV1 1) (List.replicate 16 0) :=
    ⟨by decide,by decide,by decide,fun several => absurd several (by decide),by decide,by decide,by decide⟩
  have encoded := encode_of_parts _ _ {mac := some lengthMac,nodeKey := some zeroKey} maxFrame [] admitted (by decide) rfl
  cases hands with
  | single f _ _ =>
    rw [heard]
    exact ⟨Nat.le_of_ble_eq_true rfl,List.cons_ne_nil _ _,_,encoded⟩
  | set f _ _ _ _ =>
    rw [heard]
    exact ⟨Nat.le_of_ble_eq_true rfl,List.cons_ne_nil _ _,_,encoded⟩

end LoraRan.System.OwedReports
