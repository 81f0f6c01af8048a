import LoraRan.Bridge.HexProxy
import LoraRan.Bridge.Publish
import LoraRan.Library.Clock
import LoraRan.Library.Occurrence

namespace LoraRan.Bridge.HexAudit
open Protocol Library.Clock Library.Occurrence
open Publish (text kUtcPlausible)

-- The documents.

def hexOutcomeToken : HexOutcome → Bytes
  | .pending => text "pending"
  | .answered => text "answered"
  | .noResponse => text "no_response"
  | .unknown => text "unknown"
  | .rejected => text "rejected"
  | .resyncFailed => text "resync_failed"
  | .refusedDisarmed => text "refused_disarmed"

def hexStatusToken (status : UInt8) : Bytes :=
  if status = HexStatus.ok.code then text "ok"
  else if status = HexStatus.timeout.code then text "timeout"
  else if status = HexStatus.rejectedUnauthenticated.code then text "rejected_unauthenticated"
  else if status = HexStatus.busy.code then text "busy"
  else if status = HexStatus.uartError.code then text "uart_error"
  else if status = HexStatus.malformedRequest.code then text "malformed_request"
  else text "unknown"

-- A copy in a buffer of one more than the longest request, read up to its first NUL.
def terminated (s : Bytes) : Bytes := (s.take hexMaxChars).takeWhile fun b => b ≠ 0

def hexBody (req : HexRequest) (st : HexStep) (rsp : Bytes) : List JsonCall :=
  ([.str (text "request") (some (terminated req.hex)),.u32 (text "seq") st.seq.toUInt32,
    .str (text "outcome") (some (hexOutcomeToken st.outcome))] : List JsonCall) ++
  (if st.outcome = .answered then
    [.str (text "status") (some (hexStatusToken st.status)),
      if 0 < rsp.length then .str (text "response") (some (terminated rsp)) else .null (text "response")]
   else [.null (text "status"),.null (text "response")]) ++
  (if st.outcome = .rejected ∨ st.outcome = .resyncFailed then [.u32 (text "result") st.ackResult.toUInt32] else [])

def atCall (utcS : Int64) : JsonCall :=
  match (if kUtcPlausible ≤ utcS then UtcText.formatUtc utcS 32 else none) with
  | some (b :: rest) => .str (text "at") (some (b :: rest))
  | _ => .null (text "at")

def authorization (outcome : HexOutcome) : Bytes := if outcome = .refusedDisarmed then text "disarmed" else text "armed"

def hexAuditCalls (req : HexRequest) (st : HexStep) (rsp : Bytes) (utcS : Int64) : List JsonCall :=
  hexBody req st rsp ++ [.str (text "authorization") (some (authorization st.outcome)),atCall utcS]

-- The entry of a write refused in front of the proxy, of which no frame is ever built.
def hexRefusalAuditCalls (req : HexRequest) (outcome : Bytes) (armed : Bool) (utcS : Int64) : List JsonCall :=
  [.str (text "request") (some (terminated req.hex)),.null (text "seq"),.str (text "outcome") (some outcome),.null (text "status"),
    .null (text "response"),.str (text "authorization") (some (if armed then text "armed" else text "disarmed")),atCall utcS]

-- A run in true time: the proxy, an arm for each node and when it was last set, the frames of the request in flight, and
-- every write's frame and audit so far.

structure Aired where
  at_ : Nat
  set : Bool
  since : Nat
  deriving DecidableEq

structure Entry where
  calls : List JsonCall
  frames : List Aired
  deriving DecidableEq

structure Run where
  proxy : HexProxy := {}
  arms : NodeId → WriteArm := fun _ => {}
  armedAt : NodeId → Nat := fun _ => 0
  now : Nat
  frames : List Aired := []
  written : List Aired := []
  audits : List Entry := []

-- A string that is no frame is answered in front of the queue, and its class says what is submitted. `next` is a turn of the
-- scheduler: a due frame that is built is sent in the same turn.
inductive Op where
  | wait (ms : Nat)
  | arm (node : NodeId)
  | disarm (node : NodeId)
  | expire (node : NodeId)
  | levers (rspTimeoutMs : UInt32) (readRetries : UInt8)
  | submit (req : HexRequest) (ctx : CtxId) (writeSeq : Seq)
  | next (built : Bool) (utcS : Int64)
  | aired (airedMs : UInt32)
  | rsp (src : NodeId) (seq : Seq) (rsp : HexRsp)
  | ack (src : NodeId) (ack : CommandAck) (ackCtx : CtxId)

section
variable (timeoutS : UInt32)

def Run.node (r : Run) : NodeId := r.proxy.req.dst

-- Gate 2's answer for the node in flight.
def Run.armed (r : Run) : Bool := (r.arms r.node).armed (stamp r.now) timeoutS

def Run.transmission (r : Run) : Aired := ⟨r.now,(r.arms r.node).set,r.armedAt r.node⟩

def Run.next (r : Run) (built : Bool) (utcS : Int64) : Run :=
  let (st,p) := r.proxy.next (stamp r.now) (r.armed timeoutS)
  match st.action with
  | .none => {r with proxy := p}
  | .send =>
      if built then
        {r with
          proxy := p.onSent (stamp r.now)
          frames := r.frames ++ [r.transmission]
          written := if st.write then r.written ++ [r.transmission] else r.written}
      else {r with proxy := p}
  | .resolve =>
      {r with proxy := p,audits := if st.audit then r.audits ++ [⟨hexAuditCalls r.proxy.req st r.proxy.rsp utcS,r.frames⟩] else r.audits}

def Run.step (r : Run) : Op → Run
  | .wait ms => {r with now := r.now + ms}
  | .arm node => {r with arms := Function.update r.arms node ((r.arms node).arm (stamp r.now)),armedAt := Function.update r.armedAt node r.now}
  | .disarm node => {r with arms := Function.update r.arms node (r.arms node).disarm}
  | .expire node => {r with arms := Function.update r.arms node ((r.arms node).expire (stamp r.now) timeoutS).2}
  | .levers rspTimeoutMs readRetries => {r with proxy := {r.proxy with rspTimeoutMs := rspTimeoutMs,readRetries := readRetries}}
  | .submit req ctx writeSeq =>
      if classifyHex req.hex = .malformed then r
      else
        let (accepted,p) := r.proxy.submit req (classifyHex req.hex = .write) ctx writeSeq (stamp r.now)
        {r with proxy := p,frames := if accepted then [] else r.frames}
  | .next built utcS => r.next timeoutS built utcS
  | .aired airedMs => {r with proxy := r.proxy.onAired airedMs}
  | .rsp src seq rsp => {r with proxy := (r.proxy.onRsp src seq rsp).2}
  | .ack src ack ackCtx => {r with proxy := (r.proxy.onAck src ack ackCtx (stamp r.now)).2}

def after (start : Nat) (ops : List Op) : Run := ops.foldl (Run.step timeoutS) {now := start}

end

-- What an entry says of its write.
def Says (e : Entry) (word : Bytes) : Prop := JsonCall.str (text "authorization") (some word) ∈ e.calls

-- The frame left while the arm was set, and no longer ago than it lasts.
def Permitted (timeoutS : UInt32) (f : Aired) : Prop := f.set = true ∧ f.at_ ≤ f.since + timeoutS.toNat * 1000

structure AuditTrue (timeoutS : UInt32) (r : Run) : Prop where
  disarmed : ∀ e ∈ r.audits, Says e (text "disarmed") → e.frames = []
  armed : ∀ e ∈ r.audits, Says e (text "armed") → ∃ f ∈ e.frames, Permitted timeoutS f
  written : ∀ f ∈ r.written, Permitted timeoutS f

theorem keys_apart : text "request" ≠ text "authorization" ∧ text "outcome" ≠ text "authorization" ∧ text "status" ≠ text "authorization" ∧
    text "response" ≠ text "authorization" ∧ text "at" ≠ text "authorization" := by decide +kernel

theorem at_apart (utcS : Int64) (word : Bytes) : JsonCall.str (text "authorization") (some word) ≠ atCall utcS := by
  intro is
  unfold atCall at is
  split at is
  · rw [JsonCall.str.injEq] at is
    exact absurd is.1.symm keys_apart.2.2.2.2
  · cases is

-- The word stands for the outcome, and nothing else of the document does.
theorem says_authorization (req : HexRequest) (st : HexStep) (rsp : Bytes) (utcS : Int64) (frames : List Aired) (word : Bytes)
    (said : Says ⟨hexAuditCalls req st rsp utcS,frames⟩ word) : word = authorization st.outcome := by
  obtain ⟨request,outcome,status,response,_⟩ := keys_apart
  unfold Says hexAuditCalls at said
  rcases List.mem_append.mp said with body | rest
  · unfold hexBody at body
    rcases List.mem_append.mp body with first | result
    · rcases List.mem_append.mp first with head | answer
      · simp only [List.mem_cons,JsonCall.str.injEq,reduceCtorEq,List.not_mem_nil,or_false,false_or] at head
        rcases head with ⟨same,_⟩ | ⟨same,_⟩
        · exact absurd same.symm request
        · exact absurd same.symm outcome
      · split at answer
        · rcases List.mem_cons.mp answer with is | rest
          · rw [JsonCall.str.injEq] at is
            exact absurd is.1.symm status
          · have is := List.mem_singleton.mp rest
            split at is
            · rw [JsonCall.str.injEq] at is
              exact absurd is.1.symm response
            · cases is
        · simp only [List.mem_cons,reduceCtorEq,List.not_mem_nil,or_false] at answer
    · split at result
      · cases List.mem_singleton.mp result
      · cases result
  · rcases List.mem_cons.mp rest with is | last
    · rw [JsonCall.str.injEq] at is
      exact Option.some.inj is.2
    · exact absurd (List.mem_singleton.mp last) (at_apart utcS word)

-- A refusal's word is the arm as it stood.
theorem refusal_says (req : HexRequest) (outcome : Bytes) (armed : Bool) (utcS : Int64) (word : Bytes) :
    Says ⟨hexRefusalAuditCalls req outcome armed utcS,[]⟩ word ↔ word = if armed then text "armed" else text "disarmed" := by
  obtain ⟨request,outcome_,_⟩ := keys_apart
  unfold Says hexRefusalAuditCalls
  simp only [List.mem_cons,JsonCall.str.injEq,reduceCtorEq,List.not_mem_nil,or_false,false_or,Option.some.injEq,true_and,at_apart]
  constructor
  · rintro (⟨same,_⟩ | ⟨same,_⟩ | is)
    · exact absurd same.symm request
    · exact absurd same.symm outcome_
    · exact is
  · exact fun is => .inr (.inr is)

theorem says_disarmed (req : HexRequest) (st : HexStep) (rsp : Bytes) (utcS : Int64) (frames : List Aired) :
    Says ⟨hexAuditCalls req st rsp utcS,frames⟩ (text "disarmed") ↔ st.outcome = .refusedDisarmed := by
  have apart : text "disarmed" ≠ text "armed" := by decide +kernel
  constructor
  · intro said
    by_contra other
    have word := says_authorization req st rsp utcS frames _ said
    rw [authorization,if_neg other] at word
    exact apart word
  · intro refused
    unfold Says hexAuditCalls authorization
    rw [if_pos refused]
    exact List.mem_append_right _ List.mem_cons_self

theorem says_armed (req : HexRequest) (st : HexStep) (rsp : Bytes) (utcS : Int64) (frames : List Aired)
    (said : Says ⟨hexAuditCalls req st rsp utcS,frames⟩ (text "armed")) : st.outcome ≠ .refusedDisarmed := by
  have apart : text "armed" ≠ text "disarmed" := by decide +kernel
  intro refused
  have word := says_authorization req st rsp utcS frames _ said
  rw [authorization,if_pos refused] at word
  exact apart word

-- The arm in true time: its age with the whole turns left out, and the half turn in which its age shows as negative.
theorem armed_iff (a : WriteArm) (since now : Nat) (timeoutS : UInt32) (short : timeoutS.toNat * 1000 < 2 ^ 31) (later : since ≤ now)
    (set : a.set = true) (stamped : a.armedMs = stamp since) :
    a.armed (stamp now) timeoutS = true ↔ (now - since) % 2 ^ 32 < timeoutS.toNat * 1000 ∨ 2 ^ 31 ≤ (now - since) % 2 ^ 32 := by
  have span : (timeoutS * 1000).toNat = timeoutS.toNat * 1000 := by
    rw [UInt32.toNat_mul]
    change timeoutS.toNat * 1000 % 2 ^ 32 = _
    omega
  have bound : (timeoutS * 1000).toInt32.toInt = (timeoutS.toNat * 1000 : Int) := by
    rw [Int32.toInt,UInt32.toBitVec_toInt32,BitVec.toInt_eq_toNat_cond,UInt32.toNat_toBitVec,span]
    split <;> omega
  have age := stamp_sub since now later
  have shown := elapsed_eq (stamp now) (stamp since)
  unfold elapsed at shown
  unfold WriteArm.armed windowOpen
  rw [set,stamped,Bool.true_and,decide_eq_true_eq,Int32.lt_iff_toInt_lt,bound,shown,age]
  split <;> omega

section
variable (timeoutS : UInt32)

-- How long ago the arm of the node in flight was set.
def Run.age (r : Run) : Nat := r.now - r.armedAt r.node

-- A turn with a write due: a set arm that is too old does not show as younger, and the arm has not lapsed under a resync.
structure Timely (r : Run) (op : Op) : Prop where
  young : ∀ utcS, op = .next true utcS → r.proxy.phase = .sendDue → r.proxy.write = true → (r.arms r.node).set = true →
    r.age < timeoutS.toNat * 1000 ∨ timeoutS.toNat * 1000 ≤ r.age % 2 ^ 32 ∧ r.age % 2 ^ 32 < 2 ^ 31
  resync : ∀ built utcS, op = .next built utcS → r.proxy.phase = .sendDue → r.proxy.write = true → r.proxy.resyncUsed = true →
    (r.arms r.node).set = true ∧ (r.age % 2 ^ 32 < timeoutS.toNat * 1000 ∨ 2 ^ 31 ≤ r.age % 2 ^ 32)

-- What a run keeps: the arms' stamps, and what has left of the write in flight.
structure Kept (r : Run) : Prop where
  clock : ∀ n, (r.arms n).set = true → (r.arms n).armedMs = stamp (r.armedAt n) ∧ r.armedAt n ≤ r.now
  due : r.proxy.phase = .sendDue → r.proxy.write = true → r.proxy.resyncUsed = false → r.frames = []
  left_ : r.proxy.phase = .awaiting ∨ r.proxy.phase = .resolved → r.proxy.write = true → ∃ f ∈ r.frames, Permitted timeoutS f
  resolved : r.proxy.phase = .resolved → r.proxy.write = true → r.proxy.outcome ≠ .refusedDisarmed
  audit : AuditTrue timeoutS r

-- Any turn leaves what kind of request it is, and says it in its step.
theorem next_kind (p : HexProxy) (nowMs : UInt32) (armed : Bool) :
    (p.next nowMs armed).2.write = p.write ∧ ((p.next nowMs armed).1.action = .send → (p.next nowMs armed).1.write = p.write) ∧
      ((p.next nowMs armed).1.action = .resolve → (p.next nowMs armed).1.audit = p.write) := by
  rcases p.next_cases nowMs armed with is | ⟨attempt,_,is⟩ | ⟨outcome,_,_,is⟩ | ⟨_,is⟩
  · rw [is]
    refine ⟨rfl,?_,?_⟩
    · intro act
      cases act
    · intro act
      cases act
  · rw [is]
    refine ⟨rfl,fun _ => rfl,?_⟩
    intro act
    cases act
  · rw [is]
    refine ⟨rfl,?_,fun _ => rfl⟩
    intro act
    cases act
  · rw [is]
    refine ⟨rfl,?_,fun _ => rfl⟩
    intro act
    cases act

theorem onSent_kind (p : HexProxy) (nowMs : UInt32) : (p.onSent nowMs).write = p.write := by
  unfold HexProxy.onSent
  split
  · rfl
  · rfl

-- A read leaves no entry, and its frames are no writes.
theorem next_read (r : Run) (built : Bool) (utcS : Int64) (read : r.proxy.write = false) :
    (r.next timeoutS built utcS).proxy.write = false ∧ (r.next timeoutS built utcS).audits = r.audits ∧
      (r.next timeoutS built utcS).written = r.written ∧ (r.next timeoutS built utcS).arms = r.arms ∧
      (r.next timeoutS built utcS).armedAt = r.armedAt ∧ (r.next timeoutS built utcS).now = r.now := by
  obtain ⟨kept,sends,resolves⟩ := next_kind r.proxy (stamp r.now) (r.armed timeoutS)
  rw [read] at kept sends resolves
  unfold Run.next
  dsimp only
  split
  case h_1 => exact ⟨kept,rfl,rfl,rfl,rfl,rfl⟩
  case h_2 act =>
    split
    · rw [sends act,onSent_kind]
      exact ⟨kept,rfl,rfl,rfl,rfl,rfl⟩
    · exact ⟨kept,rfl,rfl,rfl,rfl,rfl⟩
  case h_3 act =>
    rw [resolves act]
    exact ⟨kept,rfl,rfl,rfl,rfl,rfl⟩

theorem next_entry (r : Run) (kept : Kept timeoutS r) (outcome : HexOutcome) (utcS : Int64)
    (disarmed : outcome = .refusedDisarmed → r.frames = []) (armed : outcome ≠ .refusedDisarmed → ∃ f ∈ r.frames, Permitted timeoutS f)
    (st : HexStep) (is : st.outcome = outcome) :
    AuditTrue timeoutS {r with audits := r.audits ++ [⟨hexAuditCalls r.proxy.req st r.proxy.rsp utcS,r.frames⟩]} := by
  obtain ⟨disarmed_,armed_,written_⟩ := kept.audit
  constructor
  · intro e inside said
    rcases List.mem_append.mp inside with earlier | last
    · exact disarmed_ e earlier said
    · rw [List.mem_singleton.mp last] at said ⊢
      exact disarmed (is ▸ (says_disarmed _ st _ utcS _).mp said)
  · intro e inside said
    rcases List.mem_append.mp inside with earlier | last
    · exact armed_ e earlier said
    · rw [List.mem_singleton.mp last] at said ⊢
      exact armed (is ▸ says_armed _ st _ utcS _ said)
  · exact written_

theorem kept_resolve (r : Run) (kept : Kept timeoutS r) (q : HexProxy) (idle : q.phase = .idle) (outcome : HexOutcome) (utcS : Int64)
    (disarmed : outcome = .refusedDisarmed → r.frames = []) (armed : outcome ≠ .refusedDisarmed → ∃ f ∈ r.frames, Permitted timeoutS f)
    (st : HexStep) (is : st.outcome = outcome) :
    Kept timeoutS {r with proxy := q,audits := r.audits ++ [⟨hexAuditCalls r.proxy.req st r.proxy.rsp utcS,r.frames⟩]} := by
  obtain ⟨one,two,three⟩ := next_entry timeoutS r kept outcome utcS disarmed armed st is
  refine ⟨kept.clock,?_,?_,?_,one,two,three⟩
  · intro due
    rw [idle] at due
    cases due
  · rintro (due | due)
    · rw [idle] at due
      cases due
    · rw [idle] at due
      cases due
  · intro due
    rw [idle] at due
    cases due

-- The arm that lets a frame go is set and young.
theorem transmission_permitted (r : Run) (short : timeoutS.toNat * 1000 < 2 ^ 31) (kept : Kept timeoutS r) (utcS : Int64)
    (timely : Timely timeoutS r (.next true utcS)) (due : r.proxy.phase = .sendDue) (write : r.proxy.write = true)
    (armed : r.armed timeoutS = true) : Permitted timeoutS r.transmission := by
  have set : (r.arms r.node).set = true := by
    unfold Run.armed WriteArm.armed at armed
    exact (Bool.and_eq_true_iff.mp armed).1
  obtain ⟨stamped,later⟩ := kept.clock r.node set
  have shown := (armed_iff (r.arms r.node) (r.armedAt r.node) r.now timeoutS short later set stamped).mp armed
  have young := timely.young utcS rfl due write set
  unfold Run.age at young
  refine ⟨set,?_⟩
  change r.now ≤ r.armedAt r.node + timeoutS.toNat * 1000
  omega

-- A refused write has sent nothing.
theorem refused_unsent (r : Run) (short : timeoutS.toNat * 1000 < 2 ^ 31) (kept : Kept timeoutS r) (built : Bool) (utcS : Int64)
    (timely : Timely timeoutS r (.next built utcS)) (due : r.proxy.phase = .sendDue) (write : r.proxy.write = true)
    (disarmed : r.armed timeoutS = false) : r.frames = [] := by
  cases used : r.proxy.resyncUsed with
  | false => exact kept.due due write used
  | true =>
      obtain ⟨set,shows⟩ := timely.resync built utcS rfl due write used
      obtain ⟨stamped,later⟩ := kept.clock r.node set
      have armed := (armed_iff (r.arms r.node) (r.armedAt r.node) r.now timeoutS short later set stamped).mpr shows
      unfold Run.armed at disarmed
      rw [armed] at disarmed
      cases disarmed

theorem kept_next (r : Run) (short : timeoutS.toNat * 1000 < 2 ^ 31) (kept : Kept timeoutS r) (built : Bool) (utcS : Int64)
    (timely : Timely timeoutS r (.next built utcS)) : Kept timeoutS (r.next timeoutS built utcS) := by
  cases write : r.proxy.write with
  | false =>
      obtain ⟨read,audits,written,arms,armedAt,now⟩ := next_read timeoutS r built utcS write
      have no : (r.next timeoutS built utcS).proxy.write = true → False := fun yes => by
        rw [read] at yes
        cases yes
      refine ⟨?_,fun _ yes => (no yes).elim,fun _ yes => (no yes).elim,fun _ yes => (no yes).elim,?_,?_,?_⟩
      · rw [arms,armedAt,now]
        exact kept.clock
      · rw [audits]
        exact kept.audit.disarmed
      · rw [audits]
        exact kept.audit.armed
      · rw [written]
        exact kept.audit.written
  | true =>
      cases phase : r.proxy.phase with
      | idle =>
          have is : r.proxy.next (stamp r.now) (r.armed timeoutS) = ({},r.proxy) := by
            unfold HexProxy.next
            rw [phase]
          unfold Run.next
          rw [is]
          exact kept
      | sendDue =>
          cases armed : r.armed timeoutS with
          | false =>
              have is : r.proxy.next (stamp r.now) false = (r.proxy.resolve .refusedDisarmed).emitResolve := by
                unfold HexProxy.next HexProxy.emitSend
                rw [phase,write]
                rfl
              have unsent := refused_unsent timeoutS r short kept built utcS timely phase write armed
              unfold Run.next
              rw [armed,is]
              dsimp only [HexProxy.emitResolve,HexProxy.resolveStep,HexProxy.resolve]
              rw [write,if_pos rfl]
              exact kept_resolve timeoutS r kept _ rfl .refusedDisarmed utcS (fun _ => unsent) (fun other => absurd rfl other) _ rfl
          | true =>
              have is : r.proxy.next (stamp r.now) true = (r.proxy.sendStep,r.proxy) := by
                unfold HexProxy.next HexProxy.emitSend
                rw [phase,write]
                rfl
              unfold Run.next
              rw [armed,is]
              dsimp only [HexProxy.sendStep]
              split
              case isTrue sent =>
                subst sent
                have permitted := transmission_permitted timeoutS r short kept utcS timely phase write armed
                have aired : r.proxy.onSent (stamp r.now) = {r.proxy with windowOpenedMs := stamp r.now,phase := .awaiting,ctxAdopted := false} := by
                  unfold HexProxy.onSent
                  rw [phase]
                  rfl
                rw [aired]
                obtain ⟨disarmed_,armed_,written_⟩ := kept.audit
                refine ⟨kept.clock,fun due => (by cases due),fun _ _ => ?_,fun done => (by cases done),disarmed_,armed_,?_⟩
                · exact ⟨r.transmission,List.mem_append_right _ (List.mem_singleton_self _),permitted⟩
                · intro f inside
                  rcases List.mem_append.mp inside with earlier | last
                  · exact written_ f earlier
                  · rw [List.mem_singleton.mp last]
                    exact permitted
              case isFalse => exact kept
      | awaiting =>
          have left_ := kept.left_ (.inl phase) write
          have is : r.proxy.next (stamp r.now) (r.armed timeoutS) = if windowOpen (stamp r.now) r.proxy.windowOpenedMs r.proxy.rspTimeoutMs then
              ({},r.proxy) else (r.proxy.resolve .unknown).emitResolve := by
            unfold HexProxy.next
            rw [phase,write]
            rfl
          unfold Run.next
          by_cases open_ : windowOpen (stamp r.now) r.proxy.windowOpenedMs r.proxy.rspTimeoutMs = true
          · rw [is,if_pos open_]
            exact kept
          · rw [is,if_neg open_]
            dsimp only [HexProxy.emitResolve,HexProxy.resolveStep,HexProxy.resolve]
            rw [write,if_pos rfl]
            exact kept_resolve timeoutS r kept _ rfl .unknown utcS (fun other => by cases other) (fun _ => left_) _ rfl
      | resolved =>
          have left_ := kept.left_ (.inr phase) write
          have is : r.proxy.next (stamp r.now) (r.armed timeoutS) = r.proxy.emitResolve := by
            unfold HexProxy.next
            rw [phase]
          unfold Run.next
          rw [is]
          dsimp only [HexProxy.emitResolve,HexProxy.resolveStep]
          rw [write,if_pos rfl]
          exact kept_resolve timeoutS r kept _ rfl r.proxy.outcome utcS (fun other => absurd other (kept.resolved phase write)) (fun _ => left_) _ rfl

-- The clock and the arms alone: what has left and what was said stays as it is.
theorem kept_arms (r : Run) (kept : Kept timeoutS r) (arms : NodeId → WriteArm) (armedAt : NodeId → Nat) (now : Nat)
    (clock : ∀ n, (arms n).set = true → (arms n).armedMs = stamp (armedAt n) ∧ armedAt n ≤ now) :
    Kept timeoutS {r with arms := arms,armedAt := armedAt,now := now} :=
  ⟨clock,kept.due,kept.left_,kept.resolved,kept.audit.disarmed,kept.audit.armed,kept.audit.written⟩

-- The proxy alone, where it stays in its phase.
theorem kept_proxy (r : Run) (kept : Kept timeoutS r) (q : HexProxy) (phase : q.phase = r.proxy.phase) (write : q.write = r.proxy.write)
    (used : q.resyncUsed = r.proxy.resyncUsed) (outcome : q.outcome = r.proxy.outcome) : Kept timeoutS {r with proxy := q} := by
  obtain ⟨clock,due,left_,resolved,disarmed,armed,written⟩ := kept
  refine ⟨clock,?_,?_,?_,disarmed,armed,written⟩
  · intro isDue isWrite unused
    exact due (phase ▸ isDue) (write ▸ isWrite) (used ▸ unused)
  · intro isLeft isWrite
    exact left_ (phase ▸ isLeft) (write ▸ isWrite)
  · intro isResolved isWrite
    rw [outcome]
    exact resolved (phase ▸ isResolved) (write ▸ isWrite)

-- A write whose frame has left is answered: the answer is no refusal.
theorem kept_answered (r : Run) (kept : Kept timeoutS r) (q : HexProxy) (awaiting : r.proxy.phase = .awaiting) (write : q.write = r.proxy.write)
    (resolved : q.phase = .resolved) (outcome : q.outcome ≠ .refusedDisarmed) : Kept timeoutS {r with proxy := q} := by
  obtain ⟨clock,_,left_,_,disarmed,armed,written⟩ := kept
  refine ⟨clock,?_,?_,fun _ _ => outcome,disarmed,armed,written⟩
  · intro isDue
    rw [resolved] at isDue
    cases isDue
  · intro _ isWrite
    exact left_ (.inl awaiting) (write ▸ isWrite)

theorem kept_submit (r : Run) (kept : Kept timeoutS r) (req : HexRequest) (ctx : CtxId) (writeSeq : Seq) :
    Kept timeoutS (r.step timeoutS (.submit req ctx writeSeq)) := by
  dsimp only [Run.step]
  split
  case isTrue => exact kept
  case isFalse =>
  generalize decide (classifyHex req.hex = .write) = write
  by_cases idle : r.proxy.phase = .idle
  · simp only [HexProxy.submit,idle,ne_eq,not_true_eq_false,if_false]
    obtain ⟨clock,_,_,_,disarmed,armed,written⟩ := kept
    refine ⟨clock,fun _ _ _ => rfl,?_,?_,disarmed,armed,written⟩
    · rintro (due | due)
      · cases due
      · cases due
    · intro due
      cases due
  · simp only [HexProxy.submit,idle,ne_eq,not_false_eq_true,if_true]
    exact kept

theorem kept_rsp (r : Run) (kept : Kept timeoutS r) (src : NodeId) (seq : Seq) (rsp : HexRsp) :
    Kept timeoutS (r.step timeoutS (.rsp src seq rsp)) := by
  dsimp only [Run.step]
  rcases r.proxy.onRsp_cases src seq rsp with same | ⟨awaiting,_,_,answer,_,is⟩
  · rw [same]
    exact kept
  · rw [is]
    exact kept_answered timeoutS r kept _ awaiting rfl rfl fun refused => (by cases refused)

-- An acknowledgement resolves as unknown, rejected or resync failed; the resync is due again with a frame already out.
theorem kept_ack (r : Run) (kept : Kept timeoutS r) (src : NodeId) (ack : CommandAck) (ackCtx : CtxId) :
    Kept timeoutS (r.step timeoutS (.ack src ack ackCtx)) := by
  dsimp only [Run.step,HexProxy.onAck]
  by_cases mine : r.proxy.Matches src ack
  · rw [if_neg (not_not.mpr mine)]
    split
    · exact kept_answered timeoutS r kept _ mine.1 rfl rfl fun refused => (by cases refused)
    · split
      · obtain ⟨clock,_,_,_,disarmed,armed,written⟩ := kept
        refine ⟨clock,fun _ _ unused => (by cases unused),?_,?_,disarmed,armed,written⟩
        · rintro (due | due)
          · cases due
          · cases due
        · intro due
          cases due
      · refine kept_answered timeoutS r kept _ mine.1 rfl rfl ?_
        dsimp only [HexProxy.resolve]
        split
        · decide
        · decide
  · rw [if_pos mine]
    exact kept

theorem kept_step (r : Run) (short : timeoutS.toNat * 1000 < 2 ^ 31) (kept : Kept timeoutS r) (op : Op) (timely : Timely timeoutS r op) :
    Kept timeoutS (r.step timeoutS op) := by
  cases op with
  | wait ms =>
      refine kept_arms timeoutS r kept r.arms r.armedAt (r.now + ms) ?_
      intro n set
      obtain ⟨stamped,later⟩ := kept.clock n set
      exact ⟨stamped,by omega⟩
  | arm node =>
      refine kept_arms timeoutS r kept _ _ r.now ?_
      intro n set
      by_cases same : n = node
      · subst same
        rw [Function.update_self,Function.update_self]
        exact ⟨rfl,Nat.le_refl _⟩
      · rw [Function.update_of_ne same] at set
        rw [Function.update_of_ne same,Function.update_of_ne same]
        exact kept.clock n set
  | disarm node =>
      refine kept_arms timeoutS r kept _ r.armedAt r.now ?_
      intro n set
      by_cases same : n = node
      · subst same
        rw [Function.update_self] at set
        cases set
      · rw [Function.update_of_ne same] at set ⊢
        exact kept.clock n set
  | expire node =>
      refine kept_arms timeoutS r kept _ r.armedAt r.now ?_
      intro n set
      by_cases same : n = node
      · subst same
        rw [Function.update_self] at set ⊢
        unfold WriteArm.expire at set ⊢
        split at set
        case isTrue holds =>
          rw [if_pos holds]
          exact kept.clock n set
        case isFalse => cases set
      · rw [Function.update_of_ne same] at set ⊢
        exact kept.clock n set
  | levers rspTimeoutMs readRetries => exact kept_proxy timeoutS r kept _ rfl rfl rfl rfl
  | submit req ctx writeSeq => exact kept_submit timeoutS r kept req ctx writeSeq
  | next built utcS => exact kept_next timeoutS r short kept built utcS timely
  | aired airedMs =>
      dsimp only [Run.step,HexProxy.onAired]
      split
      · exact kept_proxy timeoutS r kept _ rfl rfl rfl rfl
      · exact kept
  | rsp src seq rsp => exact kept_rsp timeoutS r kept src seq rsp
  | ack src ack ackCtx => exact kept_ack timeoutS r kept src ack ackCtx

theorem kept_start (start : Nat) : Kept timeoutS {now := start} := by
  refine ⟨?_,fun _ _ _ => rfl,?_,?_,?_,?_,?_⟩
  · intro n set
    cases set
  · rintro (due | due)
    · cases due
    · cases due
  · intro due
    cases due
  · intro e inside
    cases inside
  · intro e inside
    cases inside
  · intro f inside
    cases inside

theorem kept_after (start : Nat) (ops : List Op) (short : timeoutS.toNat * 1000 < 2 ^ 31)
    (timely : Always (fun pre op => Timely timeoutS (after timeoutS start pre) op) ops) : Kept timeoutS (after timeoutS start ops) := by
  induction ops using List.reverseRecOn with
  | nil => exact kept_start timeoutS start
  | append_singleton pre op ih =>
      obtain ⟨earlier,last⟩ := (always_snoc pre op).mp timely
      have kept := ih earlier
      unfold after
      rw [List.foldl_append]
      exact kept_step timeoutS _ short kept op last

-- With a timeout that an int32 holds in milliseconds (its row ends at 3600 s), a run whose write turns are all timely tells the truth.
theorem timely_audits_true (start : Nat) (ops : List Op) (short : timeoutS.toNat * 1000 < 2 ^ 31)
    (timely : Always (fun pre op => Timely timeoutS (after timeoutS start pre) op) ops) : AuditTrue timeoutS (after timeoutS start ops) :=
  (kept_after timeoutS start ops short timely).audit

end

-- Only a turn of the scheduler can be untimely.
theorem timely_other (timeoutS : UInt32) (r : Run) (op : Op) (other : ∀ built utcS, op ≠ .next built utcS) : Timely timeoutS r op := by
  constructor
  · intro utcS is
    exact absurd is (other true utcS)
  · intro built utcS is
    exact absurd is (other built utcS)

-- The maximum charge current set to 10 A.
def maxCurrent : HexRequest := {dst := 1,hex := text ":8F0ED0064000C"}

def acked (result : AckResult) : Op := .ack 1 {ackSeq := 5,result := result.code} 9

-- A write sent a minute after its arm and refused by the node.
def rejectedWrite : List Op := [.arm 1,.wait 60000,.submit maxCurrent 7 5,.next true 0,acked .rejectedSeq,.next true 0]

theorem rejected_write_true : AuditTrue 300 (after 300 0 rejectedWrite) ∧ (after 300 0 rejectedWrite).audits.length = 1 ∧
    (after 300 0 rejectedWrite).written.length = 1 := by
  have states : (after 300 0 [.arm 1,.wait 60000,.submit maxCurrent 7 5]).age = 60000 ∧
      (after 300 0 [.arm 1,.wait 60000,.submit maxCurrent 7 5]).proxy.resyncUsed = false ∧
      (after 300 0 [.arm 1,.wait 60000,.submit maxCurrent 7 5,.next true 0,acked .rejectedSeq]).proxy.phase = .resolved ∧
      (after 300 0 rejectedWrite).audits.length = 1 ∧ (after 300 0 rejectedWrite).written.length = 1 := by decide +kernel
  obtain ⟨age,unused,resolved,counts⟩ := states
  refine ⟨timely_audits_true 300 0 rejectedWrite (by decide) ?_,counts⟩
  refine (always_snoc [Op.arm 1,.wait 60000,.submit maxCurrent 7 5,.next true 0,acked .rejectedSeq] _).mpr ⟨?_,?_⟩
  · refine (always_snoc [Op.arm 1,.wait 60000,.submit maxCurrent 7 5,.next true 0] _).mpr ⟨?_,?_⟩
    · refine (always_snoc [Op.arm 1,.wait 60000,.submit maxCurrent 7 5] _).mpr ⟨?_,?_⟩
      · refine (always_snoc [Op.arm 1,.wait 60000] _).mpr ⟨?_,?_⟩
        · refine (always_snoc [Op.arm 1] _).mpr ⟨(always_snoc ([] : List Op) _).mpr ⟨always_nil,?_⟩,?_⟩
          · exact timely_other 300 _ _ nofun
          · exact timely_other 300 _ _ nofun
        · exact timely_other 300 _ _ nofun
      · constructor
        · intro _ _ _ _ _
          rw [age]
          exact .inl (by decide)
        · intro _ _ _ _ _ used
          rw [unused] at used
          cases used
    · exact timely_other 300 _ _ nofun
  · constructor
    · intro _ _ due
      rw [resolved] at due
      cases due
    · intro _ _ _ due
      rw [resolved] at due
      cases due

def resynced : List Op := [.arm 1,.submit maxCurrent 7 5,.next true 0,acked .rejectedCtx,.disarm 1,.next true 0]

def refusedStep : HexStep where
  action := .resolve
  dst := 1
  write := true
  seq := 1
  ctxId := 9
  ctxAdopted := true
  outcome := .refusedDisarmed
  audit := true

-- A write sent, asked again after a context mismatch and disarmed by then is audited as never armed; and after 2 ^ 31 ms an
-- arm that was never swept lets a write go.
theorem audits_lie : (¬∀ ops, AuditTrue 300 (after 300 0 ops)) ∧
    ¬ AuditTrue 300 (after 300 0 resynced) ∧
    ¬ AuditTrue 300 (after 300 0 [.arm 1,.wait 2147483648,.submit maxCurrent 7 5,.next true 0]) := by
  have resync : ¬ AuditTrue 300 (after 300 0 resynced) := by
    intro holds
    have entry : (after 300 0 resynced).audits = [⟨hexAuditCalls maxCurrent refusedStep [] 0,[⟨0,true,0⟩]⟩] := by decide +kernel
    have inside := List.mem_singleton_self (⟨hexAuditCalls maxCurrent refusedStep [] 0,[⟨0,true,0⟩]⟩ : Entry)
    rw [← entry] at inside
    cases holds.disarmed _ inside ((says_disarmed _ _ _ _ _).mpr rfl)
  refine ⟨fun every => resync (every _),resync,?_⟩
  intro holds
  have written : (after 300 0 [.arm 1,.wait 2147483648,.submit maxCurrent 7 5,.next true 0]).written = [⟨2147483648,true,0⟩] := by decide +kernel
  have permitted := holds.written ⟨2147483648,true,0⟩ (by rw [written]; exact List.mem_singleton_self _)
  exact absurd permitted.2 (by decide)

end LoraRan.Bridge.HexAudit
