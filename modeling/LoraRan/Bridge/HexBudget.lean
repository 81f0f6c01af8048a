import LoraRan.Bridge.HexProxy
import LoraRan.Library.StepSystem

namespace LoraRan.Bridge
open Protocol

-- A frame that left, under what context and number, and what gate 2 said of its node then.
structure HexSending where
  ctx : CtxId
  seq : Seq
  armed : Bool

-- A request the proxy took, and everything that came of it. Nothing reads it back.
structure HexCase where
  req : HexRequest
  write : Bool
  ctx : CtxId
  seq : Seq
  frames : List HexSending := []
  acks : List (CommandAck × CtxId) := []
  ends : List HexStep := []

-- The proxy, and its requests with the latest first.
structure HexDesk where
  proxy : HexProxy
  cases_ : List HexCase := []

inductive HexOp where
  | submit (req : HexRequest) (write : Bool) (ctx : CtxId) (writeSeq : Seq) (nowMs : UInt32)
  | turn (nowMs : UInt32) (armed queued : Bool)
  | aired (airedMs : UInt32)
  | rsp (src : NodeId) (seq : Seq) (rsp : HexRsp)
  | ack (src : NodeId) (ack : CommandAck) (ackCtx : CtxId) (nowMs : UInt32)
  | rspTimeout (ms : UInt32)

def latest (f : HexCase → HexCase) : List HexCase → List HexCase
  | [] => []
  | c :: rest => f c :: rest

def HexDesk.turn (d : HexDesk) (nowMs : UInt32) (armed queued : Bool) : HexDesk :=
  let (st,p) := d.proxy.next nowMs armed
  match st.action with
  | .none => {d with proxy := p}
  | .send =>
      if queued then
        {proxy := p.onSent nowMs,cases_ := latest (fun c => {c with frames := c.frames ++ [⟨st.ctxId,st.seq,armed⟩]}) d.cases_}
      else {d with proxy := p}
  | .resolve => {proxy := p,cases_ := latest (fun c => {c with ends := c.ends ++ [st]}) d.cases_}

def HexDesk.step (d : HexDesk) : HexOp → HexDesk
  | .submit req write ctx writeSeq nowMs =>
      let (accepted,p) := d.proxy.submit req write ctx writeSeq nowMs
      if accepted then {proxy := p,cases_ := ⟨req,write,p.ctx,p.seq,[],[],[]⟩ :: d.cases_} else {d with proxy := p}
  | .turn nowMs armed queued => d.turn nowMs armed queued
  | .aired airedMs => {d with proxy := d.proxy.onAired airedMs}
  | .rsp src seq rsp => {d with proxy := (d.proxy.onRsp src seq rsp).2}
  | .ack src ack ackCtx nowMs =>
      let (claimed,p) := d.proxy.onAck src ack ackCtx nowMs
      {proxy := p,cases_ := if claimed then latest (fun c => {c with acks := c.acks ++ [(ack,ackCtx)]}) d.cases_ else d.cases_}
  | .rspTimeout ms => {d with proxy := {d.proxy with rspTimeoutMs := ms}}

def readAttempts (readRetries : UInt8) (req : HexRequest) : Nat := if req.origin = .readback then 0 else readRetries.toNat

-- The frame after a refusal in the old context: a Set's only, in the context the refusal named, with the first number there.
def HexCase.Resent (c : HexCase) (f : HexSending) : Prop :=
  c.write = true ∧ isRestart c.req.hex = false ∧ ∃ a ∈ c.acks, a.1.result = AckResult.rejectedCtx.code ∧ f.ctx = a.2 ∧ f.seq = 1

structure HexCase.Kept (readRetries : UInt8) (c : HexCase) : Prop where
  reads : c.write = false → c.frames.length ≤ 1 + readAttempts readRetries c.req
  writes : c.write = true → c.frames.length ≤ 2
  armed : c.write = true → ∀ f ∈ c.frames, f.armed = true
  framed : ∀ i f, c.frames[i]? = some f → f.ctx = c.ctx ∧ f.seq = c.seq ∨ i = 1 ∧ c.Resent f
  ended : ∀ st ∈ c.ends, st.audit = c.write ∧ st.dst = c.req.dst ∧ (st.outcome = .answered → c.frames ≠ [])

-- The request in flight as the proxy has it.
structure HexProxy.Serves (p : HexProxy) (readRetries : UInt8) (c : HexCase) : Prop where
  kept : c.Kept readRetries
  req : p.req = c.req
  write : p.write = c.write
  restart : p.restart = isRestart c.req.hex
  closed : p.phase = .idle → c.ends.length = 1
  open_ : p.phase ≠ .idle → c.ends = []
  reads : p.phase ≠ .idle → c.write = false →
    p.attempt.toNat ≤ readAttempts readRetries c.req ∧ c.frames.length = p.attempt.toNat + (if p.phase = .sendDue then 0 else 1)
  writes : p.phase ≠ .idle → c.write = true → c.frames.length = (if p.resyncUsed then 1 else 0) + (if p.phase = .sendDue then 0 else 1)
  fresh : p.phase ≠ .idle → (c.write = true → p.resyncUsed = false) → p.phase ≠ .resolved → p.ctx = c.ctx ∧ p.seq = c.seq
  resynced : p.phase ≠ .idle → c.write = true → p.resyncUsed = true → p.phase ≠ .resolved →
    isRestart c.req.hex = false ∧ ∃ a ∈ c.acks, a.1.result = AckResult.rejectedCtx.code ∧ p.ctx = a.2 ∧ p.seq = 1

structure HexDesk.Good (readRetries : UInt8) (d : HexDesk) : Prop where
  limit : d.proxy.readRetries = readRetries
  unused : d.cases_ = [] → d.proxy.phase = .idle
  current : ∀ c rest, d.cases_ = c :: rest → d.proxy.Serves readRetries c
  past : ∀ c ∈ d.cases_.tail, c.Kept readRetries ∧ c.ends.length = 1

-- Only the request in flight is touched.
theorem HexDesk.Good.carry {readRetries : UInt8} {d : HexDesk} (good : d.Good readRetries) (p : HexProxy) (f : HexCase → HexCase)
    (limit : p.readRetries = d.proxy.readRetries) (rests : d.proxy.phase = .idle → p.phase = .idle)
    (serves : ∀ c, d.proxy.Serves readRetries c → p.Serves readRetries (f c)) :
    HexDesk.Good readRetries {proxy := p,cases_ := latest f d.cases_} := by
  cases d with
  | mk proxy cases_ =>
      cases cases_ with
      | nil => exact ⟨limit.trans good.limit,fun _ => rests (good.unused rfl),nofun,good.past⟩
      | cons c rest =>
          refine ⟨limit.trans good.limit,nofun,?_,good.past⟩
          rintro a as is
          rw [← (List.cons_eq_cons.mp is).1]
          exact serves c (good.current c rest rfl)

theorem latest_id (cs : List HexCase) : latest (fun c => c) cs = cs := by
  cases cs with
  | nil => rfl
  | cons c rest => rfl

section
variable {readRetries : UInt8} {p : HexProxy} {c : HexCase}

theorem HexProxy.Serves.heard (serves : p.Serves readRetries c) (src : NodeId) (seq : Seq) (rsp : HexRsp) :
    (p.onRsp src seq rsp).2.Serves readRetries c := by
  rcases p.onRsp_cases src seq rsp with is | ⟨awaits,_,_,answer,_,is⟩
  · rw [is]
    exact serves
  · rw [is]
    have busy : p.phase ≠ .idle := by
      rw [awaits]
      nofun
    have due : p.phase ≠ .sendDue := by
      rw [awaits]
      nofun
    refine ⟨serves.kept,serves.req,serves.write,serves.restart,nofun,fun _ => serves.open_ busy,?_,?_,?_,?_⟩
    · intro _ read
      have sent := serves.reads busy read
      rw [if_neg due] at sent
      exact sent
    · intro _ write
      have sent := serves.writes busy write
      rw [if_neg due] at sent
      exact sent
    · exact fun _ _ other => absurd rfl other
    · exact fun _ _ _ other => absurd rfl other

-- An ACK that is claimed is written down, and a refusal in the old context is the one ground for a second frame.
theorem HexProxy.Serves.acked (serves : p.Serves readRetries c) (src : NodeId) (ack : CommandAck) (ackCtx : CtxId) (nowMs : UInt32) :
    (p.onAck src ack ackCtx nowMs).2.Serves readRetries
      (if (p.onAck src ack ackCtx nowMs).1 then {c with acks := c.acks ++ [(ack,ackCtx)]} else c) := by
  have noted : HexCase.Kept readRetries {c with acks := c.acks ++ [(ack,ackCtx)]} := by
    refine ⟨serves.kept.reads,serves.kept.writes,serves.kept.armed,?_,serves.kept.ended⟩
    intro i f at_
    rcases serves.kept.framed i f at_ with first | ⟨second,write,once,a,inside,why⟩
    · exact .inl first
    · exact .inr ⟨second,write,once,a,List.mem_append_left _ inside,why⟩
  have resolved (q : HexProxy) (mine : p.Matches src ack) (req : q.req = p.req) (write : q.write = p.write) (restart : q.restart = p.restart)
      (attempt : q.attempt = p.attempt) (used : q.resyncUsed = p.resyncUsed) (phase : q.phase = .resolved) :
      q.Serves readRetries {c with acks := c.acks ++ [(ack,ackCtx)]} := by
    have busy : p.phase ≠ .idle := by
      rw [mine.1]
      nofun
    have due : p.phase ≠ .sendDue := by
      rw [mine.1]
      nofun
    refine ⟨noted,req.trans serves.req,write.trans serves.write,restart.trans serves.restart,?_,fun _ => serves.open_ busy,?_,?_,?_,?_⟩
    · rw [phase]
      nofun
    · intro _ read
      have sent := serves.reads busy read
      rw [if_neg due] at sent
      rw [attempt,phase,if_neg nofun]
      exact sent
    · intro _ write
      have sent := serves.writes busy write
      rw [if_neg due] at sent
      rw [used,phase,if_neg (show ¬ Phase.resolved = .sendDue by nofun)]
      exact sent
    · exact fun _ _ other => absurd phase other
    · exact fun _ _ _ other => absurd phase other
  rcases p.onAck_cases src ack ackCtx nowMs with ⟨_,is⟩ | ⟨mine,_,_,_,is⟩ | ⟨mine,rejected,unused,once,is⟩ | ⟨mine,_,outcome,_,is⟩
  · rw [is]
    exact serves
  · rw [is]
    exact resolved _ mine rfl rfl rfl rfl rfl rfl
  · rw [is]
    have busy : p.phase ≠ .idle := by
      rw [mine.1]
      nofun
    have due : p.phase ≠ .sendDue := by
      rw [mine.1]
      nofun
    have written : c.write = true := serves.write.symm.trans mine.2.1
    refine ⟨noted,serves.req,serves.write,serves.restart,nofun,fun _ => serves.open_ busy,?_,?_,?_,?_⟩
    · intro _ read
      exact absurd (written.symm.trans read) nofun
    · intro _ _
      have sent := serves.writes busy written
      rw [if_neg due,unused] at sent
      exact sent
    · exact fun _ stale => absurd (stale written) nofun
    · intro _ _ _ _
      exact ⟨serves.restart.symm.trans once,(ack,ackCtx),List.mem_append_right _ (List.mem_singleton.mpr rfl),rejected,rfl,rfl⟩
  · rw [is]
    exact resolved _ mine rfl rfl rfl rfl rfl rfl

theorem HexCase.Kept.ended_with (kept : c.Kept readRetries) (st : HexStep) (audit : st.audit = c.write) (dst : st.dst = c.req.dst)
    (answered : st.outcome = .answered → c.frames ≠ []) : HexCase.Kept readRetries {c with ends := c.ends ++ [st]} := by
  refine ⟨kept.reads,kept.writes,kept.armed,kept.framed,?_⟩
  intro e inside
  rcases List.mem_append.mp inside with before | last
  · exact kept.ended e before
  · rw [List.mem_singleton.mp last]
    exact ⟨audit,dst,answered⟩

-- One Resolve, and the request is closed.
theorem HexProxy.Serves.resolves (serves : p.Serves readRetries c) (q : HexProxy) (st : HexStep) (busy : p.phase ≠ .idle) (req : q.req = p.req)
    (write : q.write = p.write) (restart : q.restart = p.restart) (phase : q.phase = .idle) (audit : st.audit = p.write) (dst : st.dst = p.req.dst)
    (answered : st.outcome = .answered → c.frames ≠ []) : q.Serves readRetries {c with ends := c.ends ++ [st]} := by
  refine ⟨serves.kept.ended_with st (audit.trans serves.write) (by rw [dst,serves.req]) answered,req.trans serves.req,write.trans serves.write,
    restart.trans serves.restart,fun _ => ?_,fun other => absurd phase other,fun other => absurd phase other,fun other => absurd phase other,
    fun other => absurd phase other,fun other => absurd phase other⟩
  change (c.ends ++ [st]).length = 1
  rw [serves.open_ busy]
  rfl

-- A request due to be sent: as it stands, or a read once more behind a closed window.
theorem HexProxy.Serves.due (serves : p.Serves readRetries c) (limit : p.readRetries = readRetries) (attempt : UInt8)
    (from_ : p.phase = .sendDue ∧ attempt = p.attempt ∨ p.phase = .awaiting ∧ p.write = false ∧ p.attempt < p.readLimit ∧ attempt = p.attempt + 1) :
    HexProxy.Serves {p with attempt := attempt,phase := .sendDue} readRetries c := by
  rcases from_ with ⟨due,same⟩ | ⟨awaits,read,more,is⟩
  · have whole : {p with attempt := attempt,phase := .sendDue} = p := by rw [same,← due]
    rw [whole]
    exact serves
  · have busy : p.phase ≠ .idle := by
      rw [awaits]
      nofun
    have isRead : c.write = false := serves.write.symm.trans read
    have sent := serves.reads busy isRead
    rw [awaits,if_neg nofun] at sent
    have limit_ : p.readLimit.toNat = readAttempts readRetries c.req := by
      unfold HexProxy.readLimit readAttempts
      rw [serves.req,limit]
      split
      · rfl
      · rfl
    have below : p.attempt.toNat < readAttempts readRetries c.req := by
      rw [← limit_]
      exact UInt8.lt_iff_toNat_lt.mp more
    have next : attempt.toNat = p.attempt.toNat + 1 := by
      have bound := p.readLimit.toNat_lt
      rw [is,UInt8.toNat_add]
      change (p.attempt.toNat + 1) % 256 = _
      omega
    refine ⟨serves.kept,serves.req,serves.write,serves.restart,nofun,fun _ => serves.open_ busy,?_,?_,?_,?_⟩
    · intro _ _
      change attempt.toNat ≤ _ ∧ c.frames.length = attempt.toNat + 0
      omega
    · exact fun _ write => absurd (isRead.symm.trans write) nofun
    · intro _ _ _
      exact serves.fresh busy (fun write => absurd (isRead.symm.trans write) nofun) (by rw [awaits]; nofun)
    · exact fun _ write => absurd (isRead.symm.trans write) nofun

theorem HexProxy.Serves.sends (serves : p.Serves readRetries c) (due : p.phase = .sendDue) (nowMs : UInt32) (armed : Bool)
    (open_ : p.write = true → armed = true) :
    (p.onSent nowMs).Serves readRetries {c with frames := c.frames ++ [⟨p.ctx,p.seq,armed⟩]} := by
  have busy : p.phase ≠ .idle := by
    rw [due]
    nofun
  have plain : p.phase ≠ .resolved := by
    rw [due]
    nofun
  have is : p.onSent nowMs = {p with windowOpenedMs := nowMs,phase := .awaiting,ctxAdopted := false} := if_neg (not_not.mpr due)
  have sentRead (read : c.write = false) : c.frames.length = p.attempt.toNat ∧ p.attempt.toNat ≤ readAttempts readRetries c.req := by
    have sent := serves.reads busy read
    rw [if_pos due] at sent
    exact ⟨sent.2,sent.1⟩
  have sentWrite (write : c.write = true) : c.frames.length = if p.resyncUsed then 1 else 0 := by
    have sent := serves.writes busy write
    rw [if_pos due] at sent
    exact sent
  have kept : HexCase.Kept readRetries {c with frames := c.frames ++ [⟨p.ctx,p.seq,armed⟩]} := by
    refine ⟨?_,?_,?_,?_,?_⟩
    · intro read
      obtain ⟨count,most⟩ := sentRead read
      change (c.frames ++ [_]).length ≤ _
      rw [List.length_append,List.length_singleton]
      dsimp only
      omega
    · intro write
      have count := sentWrite write
      change (c.frames ++ [_]).length ≤ 2
      rw [List.length_append,List.length_singleton,count]
      split
      · exact Nat.le_refl 2
      · exact Nat.le_succ 1
    · intro write f inside
      rcases List.mem_append.mp inside with before | last
      · exact serves.kept.armed write f before
      · rw [List.mem_singleton.mp last]
        exact open_ (serves.write.trans write)
    · intro i f at_
      rcases Nat.lt_or_ge i c.frames.length with before | after
      · rw [List.getElem?_append_left before] at at_
        exact serves.kept.framed i f at_
      · rw [List.getElem?_append_right after,List.getElem?_singleton] at at_
        split at at_
        case isFalse => cases at_
        case isTrue last =>
          cases at_
          by_cases again : c.write = true ∧ p.resyncUsed = true
          · have count := sentWrite again.1
            rw [again.2,if_pos rfl] at count
            obtain ⟨once,a,inside,why⟩ := serves.resynced busy again.1 again.2 plain
            exact .inr ⟨by omega,again.1,once,a,inside,why⟩
          · refine .inl (serves.fresh busy (fun write => ?_) plain)
            rw [← Bool.not_eq_true]
            exact fun used => again ⟨write,used⟩
    · intro st inside
      obtain ⟨audit,dst,_⟩ := serves.kept.ended st inside
      exact ⟨audit,dst,fun _ => by simp⟩
  rw [is]
  refine ⟨kept,serves.req,serves.write,serves.restart,nofun,fun _ => serves.open_ busy,?_,?_,?_,?_⟩
  · intro _ read
    obtain ⟨count,most⟩ := sentRead read
    change p.attempt.toNat ≤ _ ∧ (c.frames ++ [_]).length = p.attempt.toNat + 1
    rw [List.length_append,List.length_singleton,count]
    exact ⟨most,rfl⟩
  · intro _ write
    change (c.frames ++ [_]).length = (if p.resyncUsed then 1 else 0) + 1
    rw [List.length_append,List.length_singleton,sentWrite write]
  · exact fun _ unused _ => serves.fresh busy unused plain
  · exact fun _ write used _ => serves.resynced busy write used plain

end

theorem HexDesk.Good.turn {readRetries : UInt8} {d : HexDesk} (good : d.Good readRetries) (nowMs : UInt32) (armed queued : Bool) :
    (d.turn nowMs armed queued).Good readRetries := by
  unfold HexDesk.turn
  rcases d.proxy.next_cases nowMs armed with is | ⟨attempt,from_,is⟩ | ⟨outcome,real,from_,is⟩ | ⟨resolved,is⟩
  · rw [is]
    exact good
  · rw [is]
    have open_ : d.proxy.write = true → armed = true := by
      rcases from_ with ⟨_,_,gate⟩ | ⟨_,read,_⟩
      · exact gate
      · exact fun write => absurd (read.symm.trans write) nofun
    have moves : d.proxy.phase = .sendDue ∧ attempt = d.proxy.attempt ∨
        d.proxy.phase = .awaiting ∧ d.proxy.write = false ∧ d.proxy.attempt < d.proxy.readLimit ∧ attempt = d.proxy.attempt + 1 :=
      from_.imp_left fun all => ⟨all.1,all.2.1⟩
    have busy : d.proxy.phase ≠ .idle := by
      rcases from_ with ⟨due,_⟩ | ⟨awaits,_⟩
      · rw [due]
        nofun
      · rw [awaits]
        nofun
    dsimp only [HexProxy.sendStep]
    split
    · exact good.carry _ _ rfl (fun idle => absurd idle busy) fun c serves => (serves.due good.limit attempt moves).sends rfl nowMs armed open_
    · have same := good.carry {d.proxy with attempt := attempt,phase := .sendDue} (fun c => c) rfl (fun idle => absurd idle busy)
        fun c serves => serves.due good.limit attempt moves
      rw [latest_id] at same
      exact same
  · rw [is]
    have busy : d.proxy.phase ≠ .idle := by
      rcases from_ with due | awaits
      · rw [due]
        nofun
      · rw [awaits]
        nofun
    exact good.carry _ _ rfl (fun idle => absurd idle busy) fun c serves =>
      serves.resolves _ _ busy rfl rfl rfl rfl rfl rfl fun answered => absurd answered real
  · rw [is]
    have busy : d.proxy.phase ≠ .idle := by
      rw [resolved]
      nofun
    refine good.carry _ _ rfl (fun idle => absurd idle busy) fun c serves => serves.resolves _ _ busy rfl rfl rfl rfl rfl rfl fun _ => ?_
    -- A request that has been answered was sent.
    intro none_
    cases kind : c.write with
    | false =>
        have sent := (serves.reads busy kind).2
        rw [none_,resolved,if_neg nofun] at sent
        exact absurd sent (by simp)
    | true =>
        have sent := serves.writes busy kind
        rw [none_,resolved,if_neg (show ¬ Phase.resolved = .sendDue by nofun)] at sent
        exact absurd sent (by simp)

theorem HexDesk.Good.submit {readRetries : UInt8} {d : HexDesk} (good : d.Good readRetries) (req : HexRequest) (write : Bool) (ctx : CtxId)
    (writeSeq : Seq) (nowMs : UInt32) : (d.step (.submit req write ctx writeSeq nowMs)).Good readRetries := by
  unfold HexDesk.step HexProxy.submit
  dsimp only
  by_cases busy : d.proxy.phase ≠ .idle
  · rw [if_pos busy]
    exact good
  · rw [if_neg busy]
    have idle := not_not.mp busy
    dsimp only
    rw [if_pos rfl]
    refine ⟨good.limit,nofun,?_,?_⟩
    · intro c rest is
      rw [← (List.cons_eq_cons.mp is).1]
      have empty : HexCase.Kept readRetries ⟨req,write,ctx,if write then writeSeq else if d.proxy.readSeq + 1 = 0 then 1 else d.proxy.readSeq + 1,[],[],[]⟩ :=
        ⟨fun _ => Nat.zero_le _,fun _ => Nat.zero_le _,fun _ => nofun,fun _ _ at_ => (by cases at_),nofun⟩
      exact ⟨empty,rfl,rfl,rfl,nofun,fun _ => rfl,fun _ _ => ⟨Nat.zero_le _,rfl⟩,fun _ _ => rfl,fun _ _ _ => ⟨rfl,rfl⟩,fun _ _ used => (by cases used)⟩
    · intro c inside
      change c ∈ d.cases_ at inside
      cases all : d.cases_ with
      | nil =>
          rw [all] at inside
          cases inside
      | cons first rest =>
          rw [all] at inside
          rcases List.mem_cons.mp inside with rfl | later
          · have serves := good.current c rest all
            exact ⟨serves.kept,serves.closed idle⟩
          · exact good.past c (by rw [all]; exact later)

theorem HexDesk.Good.step {readRetries : UInt8} {d : HexDesk} (good : d.Good readRetries) (op : HexOp) : (d.step op).Good readRetries := by
  have only (p : HexProxy) (limit : p.readRetries = d.proxy.readRetries) (rests : d.proxy.phase = .idle → p.phase = .idle)
      (serves : ∀ c, d.proxy.Serves readRetries c → p.Serves readRetries c) : HexDesk.Good readRetries {d with proxy := p} := by
    have same := good.carry p (fun c => c) limit rests serves
    rw [latest_id] at same
    exact same
  cases op with
  | submit req write ctx writeSeq nowMs => exact good.submit req write ctx writeSeq nowMs
  | turn nowMs armed queued => exact good.turn nowMs armed queued
  | aired airedMs =>
      unfold HexDesk.step HexProxy.onAired
      dsimp only
      split
      · exact only _ rfl id fun c s => ⟨s.kept,s.req,s.write,s.restart,s.closed,s.open_,s.reads,s.writes,s.fresh,s.resynced⟩
      · exact good
  | rsp src seq rsp =>
      refine only _ ?_ ?_ fun c serves => serves.heard src seq rsp
      · rcases d.proxy.onRsp_cases src seq rsp with is | ⟨_,_,_,answer,_,is⟩
        · rw [is]
        · rw [is]
      · intro idle
        rcases d.proxy.onRsp_cases src seq rsp with is | ⟨awaits,_⟩
        · rw [is]
          exact idle
        · exact absurd (idle.symm.trans awaits) nofun
  | ack src ack ackCtx nowMs =>
      have limit : (d.proxy.onAck src ack ackCtx nowMs).2.readRetries = d.proxy.readRetries := by
        rcases d.proxy.onAck_cases src ack ackCtx nowMs with ⟨_,is⟩ | ⟨_,_,_,_,is⟩ | ⟨_,_,_,_,is⟩ | ⟨_,_,_,_,is⟩
        · rw [is]
        · rw [is]
        · rw [is]
        · rw [is]
      have rests : d.proxy.phase = .idle → (d.proxy.onAck src ack ackCtx nowMs).2.phase = .idle := by
        intro idle
        rcases d.proxy.onAck_cases src ack ackCtx nowMs with ⟨_,is⟩ | ⟨mine,_⟩ | ⟨mine,_⟩ | ⟨mine,_⟩
        · rw [is]
          exact idle
        all_goals exact absurd (idle.symm.trans mine.1) nofun
      have acked := fun (c : HexCase) (serves : d.proxy.Serves readRetries c) => serves.acked src ack ackCtx nowMs
      unfold HexDesk.step
      dsimp only
      generalize d.proxy.onAck src ack ackCtx nowMs = answer at limit rests acked
      obtain ⟨claimed,q⟩ := answer
      dsimp only at limit rests acked ⊢
      cases claimed with
      | true =>
          rw [if_pos rfl]
          exact good.carry q _ limit rests acked
      | false => exact only q limit rests acked
  | rspTimeout ms => exact only _ rfl id fun c s => ⟨s.kept,s.req,s.write,s.restart,s.closed,s.open_,s.reads,s.writes,s.fresh,s.resynced⟩

-- Every request the proxy ever took: its frames within its budget, each write's under an armed node, and its one end.
theorem hex_requests_within_budget (readRetries : UInt8) (ops : List HexOp) :
    (∀ c ∈ (ops.foldl HexDesk.step {proxy := {readRetries := readRetries}}).cases_, c.Kept readRetries ∧ c.ends.length ≤ 1) ∧
    (∀ c ∈ (ops.foldl HexDesk.step {proxy := {readRetries := readRetries}}).cases_.tail, c.ends.length = 1) ∧
    ((ops.foldl HexDesk.step {proxy := {readRetries := readRetries}}).proxy.busy = false →
      ∀ c ∈ (ops.foldl HexDesk.step {proxy := {readRetries := readRetries}}).cases_, c.ends.length = 1) := by
  have run (d : HexDesk) (good : d.Good readRetries) : (ops.foldl HexDesk.step d).Good readRetries := by
    induction ops generalizing d with
    | nil => exact good
    | cons op ops ih => exact ih (d.step op) (good.step op)
  have good := run {proxy := {readRetries := readRetries}} ⟨rfl,fun _ => rfl,nofun,nofun⟩
  generalize ops.foldl HexDesk.step _ = d at good
  have each (c : HexCase) (inside : c ∈ d.cases_) : d.proxy.Serves readRetries c ∨ c ∈ d.cases_.tail := by
    cases all : d.cases_ with
    | nil =>
        rw [all] at inside
        cases inside
    | cons first rest =>
        rw [all] at inside
        rcases List.mem_cons.mp inside with rfl | later
        · exact .inl (good.current c rest all)
        · exact .inr later
  refine ⟨?_,fun c inside => (good.past c inside).2,?_⟩
  · intro c inside
    rcases each c inside with serves | past
    · refine ⟨serves.kept,?_⟩
      by_cases idle : d.proxy.phase = .idle
      · exact Nat.le_of_eq (serves.closed idle)
      · rw [serves.open_ idle]
        exact Nat.zero_le 1
    · exact ⟨(good.past c past).1,Nat.le_of_eq (good.past c past).2⟩
  · intro rests c inside
    rcases each c inside with serves | past
    · refine serves.closed ?_
      unfold HexProxy.busy at rests
      exact bne_eq_false_iff_eq.mp rests
    · exact (good.past c past).2

end LoraRan.Bridge
