import LoraRan.System.SequenceSpace
import Mathlib.Tactic.ByContra

namespace LoraRan.System.SequenceSpace
open Protocol Bridge Library.StepSystem

section
variable (rank : NodeId → CtxId → Nat)

-- The registry against the count of numbers each context has given out.
structure Ledger (registry : Registry) (drawn : NodeId → CtxId → Nat) (lastCtx : NodeId → CtxId) (grants : List Sent)
    (submissions : Nat) : Prop where
  counter : ∀ n, (registry.state n).cmdSeq.toNat = drawn n (registry.state n).ctxId + 1
  unseen : ∀ n c, c ≠ 0 → (lastCtx n = 0 ∨ rank n (lastCtx n) < rank n c) → drawn n c = 0
  ahead : ∀ n, lastCtx n ≠ (registry.state n).ctxId → drawn n (lastCtx n) = 0
  behind : ∀ n, (registry.state n).ctxId = 0 ∨ lastCtx n ≠ 0 ∧ rank n (registry.state n).ctxId ≤ rank n (lastCtx n)
  numbered : ∀ g ∈ grants, 1 ≤ g.seq.toNat ∧ g.seq.toNat ≤ drawn g.node g.ctx
  older : ∀ g ∈ grants, g.submission < submissions
  apart : ∀ f ∈ grants, ∀ g ∈ grants, f.submission ≠ g.submission → f.node = g.node → f.ctx = g.ctx → f.seq ≠ g.seq

-- The number an exchange in flight uses was granted to it, and the registry has not drawn in a later context meanwhile.
def Holding (s : State) (node : NodeId) (ctx : CtxId) (seq : Seq) : Prop :=
  ⟨node,s.current,ctx,seq⟩ ∈ s.grants ∧
  ((s.registry.state node).ctxId = ctx ∨ s.drawn node (s.registry.state node).ctxId = 0)

-- A context an exchange will hand to the registry has given out no number.
def Adoptable (s : State) (node : NodeId) (ctx : CtxId) : Prop :=
  s.drawn node ctx = 0 ∧ s.drawn node (s.lastCtx node) = 0 ∧
  s.lastCtx node ≠ 0 ∧ rank node ctx ≤ rank node (s.lastCtx node)

def CommandGood (s : State) : Prop :=
  match s.command.phase with
  | .idle => True
  | .resolved => s.command.outcome = .unconfirmed → Adoptable rank s s.command.req.dst s.command.ctx
  | _ => s.command.resyncUsed = false ∧ s.command.ctxAdopted = false ∧
      Holding s s.command.req.dst s.command.ctx s.command.seq

def HexGood (s : State) : Prop :=
  match s.hex.phase with
  | .idle => True
  | .resolved => s.hex.ctxAdopted = true → Adoptable rank s s.hex.req.dst s.hex.ctx
  | _ => s.hex.resyncUsed = false ∧ s.hex.ctxAdopted = false ∧
      (s.hex.write = true → Holding s s.hex.req.dst s.hex.ctx s.hex.seq)

def Exclusive (s : State) : Prop :=
  (s.command.phase ≠ .idle → s.hex.phase = .idle ∧ s.reading = none) ∧ (s.hex.phase ≠ .idle → s.reading = none)

structure Invariant (s : State) : Prop where
  ledger : Ledger rank s.registry s.drawn s.lastCtx s.grants s.submissions
  heard : ∀ h ∈ s.heardAck, h.ctx = s.lastCtx h.src ∧ h.ctx ≠ 0
  exclusive : Exclusive s
  command : CommandGood rank s
  hex : HexGood rank s
  granted : ∀ f ∈ s.sent, f ∈ s.grants

variable {rank}

-- Registry operations.

theorem observe_parts (r : Registry) (hdr : Header) (nowMs : UInt32) (known : registered hdr.src = true) (named : hdr.ctxId ≠ 0) :
    (∀ n, n ≠ hdr.src → ((r.observe hdr nowMs).2).state n = r.state n) ∧
    (((r.observe hdr nowMs).2).state hdr.src).ctxId = hdr.ctxId ∧
    (((r.observe hdr nowMs).2).state hdr.src).cmdSeq =
      if hdr.ctxId = (r.state hdr.src).ctxId then (r.state hdr.src).cmdSeq else 1 := by
  have kept : ((r.state hdr.src).hear hdr nowMs).ctxId = (r.state hdr.src).ctxId := rfl
  by_cases same : hdr.ctxId = (r.state hdr.src).ctxId
  · simp only [Registry.observe,known,kept,same,Bool.not_true,Bool.false_eq_true,ite_false,ite_true,or_true]
    refine ⟨fun n other => by simp [other],by simp [NodeState.hear],by simp [NodeState.hear]⟩
  · simp only [Registry.observe,known,kept,named,same,Bool.not_true,Bool.false_eq_true,ite_false,or_false]
    refine ⟨fun n other => by simp [other],by simp,by simp⟩

variable {registry : Registry} {drawn : NodeId → CtxId → Nat} {lastCtx : NodeId → CtxId} {grants : List Sent} {submissions : Nat}

-- A context the registry moves to on hearing it has given out nothing yet.
theorem Ledger.moved_fresh (book : Ledger rank registry drawn lastCtx grants submissions)
    (injective : ∀ n, Function.Injective (rank n)) (n : NodeId) (ctx : CtxId) (named : ctx ≠ 0)
    (order : lastCtx n = 0 ∨ rank n (lastCtx n) ≤ rank n ctx) (moved : ctx ≠ (registry.state n).ctxId) : drawn n ctx = 0 := by
  by_cases same : lastCtx n = ctx
  · have moved' : lastCtx n ≠ (registry.state n).ctxId := same ▸ moved
    exact same ▸ book.ahead n moved'
  · apply book.unseen n ctx named
    rcases order with unheard | order
    · exact .inl unheard
    · refine .inr (Nat.lt_of_le_of_ne order ?_)
      intro equal
      exact same (injective n equal)

theorem Ledger.hear (book : Ledger rank registry drawn lastCtx grants submissions) (injective : ∀ n, Function.Injective (rank n))
    (hdr : Header) (nowMs : UInt32) (known : registered hdr.src = true) (named : hdr.ctxId ≠ 0)
    (order : lastCtx hdr.src = 0 ∨ rank hdr.src (lastCtx hdr.src) ≤ rank hdr.src hdr.ctxId) :
    Ledger rank (registry.observe hdr nowMs).2 drawn (Function.update lastCtx hdr.src hdr.ctxId) grants submissions := by
  obtain ⟨others,ctxHeard,seqHeard⟩ := observe_parts registry hdr nowMs known named
  refine ⟨?_,?_,?_,?_,book.numbered,book.older,book.apart⟩
  · intro n
    by_cases here : n = hdr.src
    · subst here
      rw [ctxHeard,seqHeard]
      split
      · rename_i same
        rw [same]
        exact book.counter hdr.src
      · rename_i moved
        rw [book.moved_fresh injective hdr.src hdr.ctxId named order moved]
        rfl
    · rw [others n here]
      exact book.counter n
  · intro n c nonzero later
    by_cases here : n = hdr.src
    · subst here
      simp only [Function.update_self] at later
      apply book.unseen hdr.src c nonzero
      rcases later with zero | later
      · exact absurd zero named
      · rcases order with unheard | order
        · exact .inl unheard
        · exact .inr (Nat.lt_of_le_of_lt order later)
    · rw [Function.update_of_ne here] at later
      exact book.unseen n c nonzero later
  · intro n differs
    by_cases here : n = hdr.src
    · subst here
      rw [ctxHeard,Function.update_self] at differs
      exact absurd rfl differs
    · rw [others n here,Function.update_of_ne here] at differs
      rw [Function.update_of_ne here]
      exact book.ahead n differs
  · intro n
    by_cases here : n = hdr.src
    · subst here
      rw [ctxHeard,Function.update_self]
      exact .inr ⟨named,Nat.le_refl _⟩
    · rw [others n here,Function.update_of_ne here]
      exact book.behind n

theorem Ledger.adopt (book : Ledger rank registry drawn lastCtx grants submissions) (n : NodeId) (ctx : CtxId)
    (fresh : drawn n ctx = 0) (last : drawn n (lastCtx n) = 0) (seen : lastCtx n ≠ 0 ∧ rank n ctx ≤ rank n (lastCtx n)) :
    Ledger rank (registry.adoptCtx n ctx) drawn lastCtx grants submissions := by
  unfold Registry.adoptCtx
  split
  · exact book
  · refine ⟨?_,book.unseen,?_,?_,book.numbered,book.older,book.apart⟩
    · intro m
      by_cases here : m = n
      · subst here
        simp [fresh]
      · simp only [Function.update_of_ne here]
        exact book.counter m
    · intro m differs
      by_cases here : m = n
      · subst here
        exact last
      · simp only [Function.update_of_ne here] at differs
        exact book.ahead m differs
    · intro m
      by_cases here : m = n
      · subst here
        simp only [Function.update_self]
        exact .inr seen
      · simp only [Function.update_of_ne here]
        exact book.behind m

def drawnAfter (registry : Registry) (drawn : NodeId → CtxId → Nat) (n : NodeId) : NodeId → CtxId → Nat :=
  Function.update drawn n (Function.update (drawn n) (registry.state n).ctxId (drawn n (registry.state n).ctxId + 1))

theorem drawnAfter_ge (n m : NodeId) (c : CtxId) : drawn m c ≤ drawnAfter registry drawn n m c := by
  unfold drawnAfter
  by_cases here : m = n
  · subst here
    by_cases now : c = (registry.state m).ctxId
    · subst now
      simp
    · simp [now]
  · simp [here]

theorem drawnAfter_other (n m : NodeId) (c : CtxId) (other : m ≠ n ∨ c ≠ (registry.state n).ctxId) :
    drawnAfter registry drawn n m c = drawn m c := by
  unfold drawnAfter
  by_cases here : m = n
  · subst here
    have now : c ≠ (registry.state m).ctxId := other.resolve_left (fun differs => differs rfl)
    simp [now]
  · simp [here]

theorem drawnAfter_here (n : NodeId) :
    drawnAfter registry drawn n n (registry.state n).ctxId = drawn n (registry.state n).ctxId + 1 := by
  simp [drawnAfter]

theorem nextCmdSeq_toNat (q : Seq) (room : q.toNat < 65535) : (nextCmdSeq q).toNat = q.toNat + 1 := by
  have moved : (q + 1).toNat = q.toNat + 1 := by
    rw [UInt16.toNat_add]
    apply Nat.mod_eq_of_lt
    change q.toNat + 1 < 65536
    omega
  have nonzero : q + 1 ≠ 0 := by
    intro zero
    have : (q + 1).toNat = 0 := congrArg UInt16.toNat zero
    omega
  rw [nextCmdSeq,if_neg nonzero,moved]

theorem Ledger.draw (book : Ledger rank registry drawn lastCtx grants submissions) (n : NodeId) (seq : Seq) (after : Registry)
    (taken : registry.takeCmdSeq n = some (seq,after)) (room : drawn n (registry.state n).ctxId + 1 < 65535) :
    seq.toNat = drawn n (registry.state n).ctxId + 1 ∧
    (∀ m, (after.state m).ctxId = (registry.state m).ctxId) ∧
    Ledger rank after (drawnAfter registry drawn n) lastCtx grants submissions := by
  unfold Registry.takeCmdSeq at taken
  split at taken
  · cases taken
  · obtain ⟨rfl,rfl⟩ : (registry.state n).cmdSeq = seq ∧ _ = after := by
      simpa only [Option.some.injEq,Prod.mk.injEq] using taken
    have ctxKept : ∀ m, (Function.update registry.state n
        {registry.state n with cmdSeq := nextCmdSeq (registry.state n).cmdSeq} m).ctxId = (registry.state m).ctxId := by
      intro m
      by_cases here : m = n
      · subst here
        simp
      · simp [here]
    refine ⟨book.counter n,ctxKept,⟨?_,?_,?_,?_,?_,book.older,book.apart⟩⟩
    · intro m
      simp only [ctxKept]
      by_cases here : m = n
      · subst here
        rw [drawnAfter_here,Function.update_self,nextCmdSeq_toNat _ (by rw [book.counter m]; exact room),book.counter m]
      · rw [Function.update_of_ne here,drawnAfter_other n m _ (.inl here)]
        exact book.counter m
    · intro m c nonzero later
      rw [drawnAfter_other,book.unseen m c nonzero later]
      by_contra both
      obtain ⟨rfl,rfl⟩ := not_or.mp both |>.imp not_not.mp not_not.mp
      rcases book.behind m with zero | ⟨heard,rankLe⟩
      · exact nonzero zero
      · rcases later with unheard | later
        · exact heard unheard
        · omega
    · intro m differs
      simp only [ctxKept] at differs
      rw [drawnAfter_other,book.ahead m differs]
      by_cases here : m = n
      · subst here
        exact .inr differs
      · exact .inl here
    · intro m
      simp only [ctxKept]
      exact book.behind m
    · intro g member
      obtain ⟨positive,bounded⟩ := book.numbered g member
      exact ⟨positive,Nat.le_trans bounded (drawnAfter_ge n g.node g.ctx)⟩

-- The next number of a context is above every number granted in it so far.
theorem Ledger.grant (book : Ledger rank registry drawn lastCtx grants submissions) (g : Sent)
    (now : g.submission = submissions) (numbered : 1 ≤ g.seq.toNat ∧ g.seq.toNat ≤ drawn g.node g.ctx)
    (above : ∀ f ∈ grants, f.node = g.node → f.ctx = g.ctx → f.seq.toNat < g.seq.toNat) :
    Ledger rank registry drawn lastCtx (g :: grants) (submissions + 1) := by
  refine ⟨book.counter,book.unseen,book.ahead,book.behind,?_,?_,?_⟩
  · intro f member
    rcases List.mem_cons.mp member with rfl | member
    · exact numbered
    · exact book.numbered f member
  · intro f member
    rcases List.mem_cons.mp member with rfl | member
    · omega
    · exact Nat.lt_succ_of_lt (book.older f member)
  · intro f member h member' differs sameNode sameCtx sameSeq
    rcases List.mem_cons.mp member with new | old
    · rcases List.mem_cons.mp member' with new' | old'
      · exact differs (by rw [new,new'])
      · subst new
        have := above h old' sameNode.symm sameCtx.symm
        rw [sameSeq] at this
        omega
    · rcases List.mem_cons.mp member' with new' | old'
      · subst new'
        have := above f old sameNode sameCtx
        rw [sameSeq] at this
        omega
      · exact book.apart f old h old' differs sameNode sameCtx sameSeq

-- What hearing a frame does to an exchange that is under way.

variable {s : State}

theorem holding_hear (book : Ledger rank s.registry s.drawn s.lastCtx s.grants s.submissions)
    (injective : ∀ n, Function.Injective (rank n)) (hdr : Header) (heard : Option HeardAck) (nowMs : UInt32)
    (known : registered hdr.src = true) (named : hdr.ctxId ≠ 0)
    (order : s.lastCtx hdr.src = 0 ∨ rank hdr.src (s.lastCtx hdr.src) ≤ rank hdr.src hdr.ctxId)
    (node : NodeId) (ctx : CtxId) (seq : Seq) (held : Holding s node ctx seq) :
    Holding {s with
      registry := (s.registry.observe hdr nowMs).2
      heardAck := heard
      lastCtx := Function.update s.lastCtx hdr.src hdr.ctxId} node ctx seq := by
  obtain ⟨granted,undrawn⟩ := held
  obtain ⟨others,ctxHeard,-⟩ := observe_parts s.registry hdr nowMs known named
  refine ⟨granted,?_⟩
  by_cases here : node = hdr.src
  · subst here
    by_cases same : hdr.ctxId = (s.registry.state hdr.src).ctxId
    · simpa only [ctxHeard,same] using undrawn
    · refine .inr ?_
      simpa only [ctxHeard] using book.moved_fresh injective hdr.src hdr.ctxId named order same
  · simpa only [others node here] using undrawn

theorem adoptable_hear (book : Ledger rank s.registry s.drawn s.lastCtx s.grants s.submissions)
    (injective : ∀ n, Function.Injective (rank n)) (hdr : Header) (heard : Option HeardAck) (nowMs : UInt32)
    (named : hdr.ctxId ≠ 0) (order : s.lastCtx hdr.src = 0 ∨ rank hdr.src (s.lastCtx hdr.src) ≤ rank hdr.src hdr.ctxId)
    (node : NodeId) (ctx : CtxId) (adoptable : Adoptable rank s node ctx) :
    Adoptable rank {s with
      registry := (s.registry.observe hdr nowMs).2
      heardAck := heard
      lastCtx := Function.update s.lastCtx hdr.src hdr.ctxId} node ctx := by
  obtain ⟨fresh,last,heardOnce,below⟩ := adoptable
  refine ⟨fresh,?_⟩
  by_cases here : node = hdr.src
  · subst here
    simp only [Function.update_self]
    have later := order.resolve_left heardOnce
    refine ⟨?_,named,Nat.le_trans below later⟩
    by_cases same : hdr.ctxId = s.lastCtx hdr.src
    · rw [same]
      exact last
    · exact book.unseen hdr.src hdr.ctxId named (.inr (Nat.lt_of_le_of_ne later fun equal => same (injective _ equal.symm)))
  · simp only [Function.update_of_ne here]
    exact ⟨last,heardOnce,below⟩

theorem commandGood_carry {s' : State} (good : CommandGood rank s) (same : s'.command = s.command)
    (holding : ∀ node ctx seq, Holding s node ctx seq → Holding s' node ctx seq)
    (adoptable : ∀ node ctx, Adoptable rank s node ctx → Adoptable rank s' node ctx) : CommandGood rank s' := by
  unfold CommandGood at good ⊢
  rw [same]
  split at good
  · trivial
  · exact fun unconfirmed => adoptable _ _ (good unconfirmed)
  · exact ⟨good.1,good.2.1,holding _ _ _ good.2.2⟩

theorem hexGood_carry {s' : State} (good : HexGood rank s) (same : s'.hex = s.hex)
    (holding : ∀ node ctx seq, Holding s node ctx seq → Holding s' node ctx seq)
    (adoptable : ∀ node ctx, Adoptable rank s node ctx → Adoptable rank s' node ctx) : HexGood rank s' := by
  unfold HexGood at good ⊢
  rw [same]
  split at good
  · trivial
  · exact fun adopted => adoptable _ _ (good adopted)
  · exact ⟨good.1,good.2.1,fun write => holding _ _ _ (good.2.2 write)⟩

theorem hear_preserves (valid : Invariant rank s) (injective : ∀ n, Function.Injective (rank n)) (hdr : Header)
    (ack : Option CommandAck) (nowMs : UInt32) (ordered : Ordered rank s (.hear hdr ack nowMs)) :
    Invariant rank (step s (.hear hdr ack nowMs)) := by
  obtain ⟨named,order⟩ := ordered
  simp only [step]
  split
  · exact valid
  · rename_i taken
    simp only [not_or,Bool.not_eq_true,Bool.not_eq_false'] at taken
    obtain ⟨-,known⟩ := taken
    have holding := holding_hear valid.ledger injective hdr (ack.map fun ack => ⟨hdr.src,ack,hdr.ctxId⟩) nowMs known named order
    have adoptable := adoptable_hear valid.ledger injective hdr (ack.map fun ack => ⟨hdr.src,ack,hdr.ctxId⟩) nowMs named order
    refine ⟨valid.ledger.hear injective hdr nowMs known named order,?_,valid.exclusive,
      commandGood_carry valid.command rfl holding adoptable,hexGood_carry valid.hex rfl holding adoptable,valid.granted⟩
    intro heard present
    cases ack with
    | none => cases present
    | some ack =>
        obtain rfl : ⟨hdr.src,ack,hdr.ctxId⟩ = heard := by simpa using present
        exact ⟨by simp,named⟩

-- Adoption leaves an exchange's own standing alone and keeps the books.
theorem adopt_preserves (valid : Invariant rank s) (flag : Bool) (node : NodeId) (ctx : CtxId)
    (adoptable : flag = true → Adoptable rank s node ctx) (others : s.command.phase = .idle ∧ s.hex.phase = .idle ∨ flag = false) :
    Invariant rank (s.adopt flag node ctx) := by
  cases flag with
  | false => exact valid
  | true =>
      obtain ⟨commandIdle,hexIdle⟩ := others.resolve_right (by decide)
      obtain ⟨fresh,last,seen⟩ := adoptable rfl
      refine ⟨valid.ledger.adopt node ctx fresh last seen,valid.heard,valid.exclusive,?_,?_,valid.granted⟩
      · simp [CommandGood,State.adopt,commandIdle]
      · simp [HexGood,State.adopt,hexIdle]

theorem commandTick_preserves (valid : Invariant rank s) (nowMs : UInt32) (queued : Bool) :
    Invariant rank (step s (.commandTick nowMs queued)) := by
  have good := valid.command
  simp only [step,State.commandTick]
  rcases s.command.next_cases nowMs with none | ⟨attempt,due,send⟩ | ⟨expired,resolve⟩ | ⟨resolved,resolve⟩
  · simp only [none]
    exact valid
  · have flying : s.command.resyncUsed = false ∧ s.command.ctxAdopted = false ∧
        Holding s s.command.req.dst s.command.ctx s.command.seq := by
      rcases due with ⟨due,-⟩ | ⟨due,-⟩ <;> simpa only [CommandGood,due] using good
    have busy : s.command.phase ≠ .idle := by
      rcases due with ⟨due,-⟩ | ⟨due,-⟩ <;> simp [due]
    obtain ⟨resync,adopted,held⟩ := flying
    simp only [send,CommandPath.sendStep,adopted,State.adopt,Bool.false_eq_true,ite_false]
    have exclusive := valid.exclusive
    split
    · refine ⟨valid.ledger,valid.heard,⟨fun _ => exclusive.1 busy,exclusive.2⟩,?_,valid.hex,?_⟩
      · simpa [CommandGood,CommandPath.onSent] using ⟨resync,held⟩
      · intro f member
        rcases List.mem_cons.mp member with rfl | member
        · exact held.1
        · exact valid.granted f member
    · refine ⟨valid.ledger,valid.heard,⟨fun _ => exclusive.1 busy,exclusive.2⟩,⟨resync,rfl,held⟩,valid.hex,valid.granted⟩
  · simp only [resolve,CommandPath.resolveStep,reduceCtorEq,decide_false,State.adopt,Bool.false_eq_true,ite_false]
    exact ⟨valid.ledger,valid.heard,⟨fun busy => absurd rfl busy,valid.exclusive.2⟩,trivial,valid.hex,valid.granted⟩
  · have busy : s.command.phase ≠ .idle := by simp [resolved]
    have settled : Invariant rank {s with command := {s.command with phase := .idle}} :=
      ⟨valid.ledger,valid.heard,⟨fun busy => absurd rfl busy,valid.exclusive.2⟩,trivial,valid.hex,valid.granted⟩
    simp only [resolve,CommandPath.resolveStep]
    apply adopt_preserves settled
    · intro unconfirmed
      have unconfirmed : s.command.outcome = .unconfirmed := by simpa using unconfirmed
      simp only [CommandGood,resolved] at good
      rw [if_pos unconfirmed]
      exact good unconfirmed
    · exact .inl ⟨rfl,(valid.exclusive.1 busy).1⟩

theorem hexTick_preserves (valid : Invariant rank s) (nowMs : UInt32) (armed queued : Bool) :
    Invariant rank (step s (.hexTick nowMs armed queued)) := by
  have good := valid.hex
  have commandIdle : s.hex.phase ≠ .idle → s.command.phase = .idle := by
    intro busy
    by_contra commandBusy
    exact busy (valid.exclusive.1 commandBusy).1
  simp only [step,State.hexTick]
  rcases s.hex.next_cases nowMs armed with none | ⟨attempt,due,send⟩ | ⟨outcome,-,due,resolve⟩ | ⟨resolved,resolve⟩
  · simp only [none]
    exact valid
  · have flying : s.hex.resyncUsed = false ∧ s.hex.ctxAdopted = false ∧
        (s.hex.write = true → Holding s s.hex.req.dst s.hex.ctx s.hex.seq) := by
      rcases due with ⟨due,-⟩ | ⟨due,-⟩ <;> simpa only [HexGood,due] using good
    have busy : s.hex.phase ≠ .idle := by
      rcases due with ⟨due,-⟩ | ⟨due,-⟩ <;> simp [due]
    obtain ⟨resync,adopted,held⟩ := flying
    simp only [send,HexProxy.sendStep,adopted,State.adopt,Bool.false_eq_true,ite_false]
    have exclusive : ∀ phase : Phase, (s.command.phase ≠ .idle → phase = .idle ∧ s.reading = none) ∧ (phase ≠ .idle → s.reading = none) :=
      fun _ => ⟨fun commandBusy => absurd (commandIdle busy) commandBusy,fun _ => valid.exclusive.2 busy⟩
    split
    · refine ⟨valid.ledger,valid.heard,exclusive _,valid.command,?_,?_⟩
      · simpa [HexGood,HexProxy.onSent] using ⟨resync,held⟩
      · intro f member
        simp only at member
        split at member
        · rename_i write
          rcases List.mem_cons.mp member with rfl | member
          · exact (held write).1
          · exact valid.granted f member
        · exact valid.granted f member
    · exact ⟨valid.ledger,valid.heard,exclusive _,valid.command,⟨resync,rfl,held⟩,valid.granted⟩
  · have unadopted : s.hex.ctxAdopted = false := by
      rcases due with due | due <;> (simp only [HexGood,due] at good; exact good.2.1)
    simp only [resolve,HexProxy.resolveStep,HexProxy.resolve,unadopted,State.adopt,Bool.false_eq_true,ite_false]
    exact ⟨valid.ledger,valid.heard,⟨fun busy => ⟨rfl,(valid.exclusive.1 busy).2⟩,fun busy => absurd rfl busy⟩,valid.command,
      trivial,valid.granted⟩
  · have busy : s.hex.phase ≠ .idle := by simp [resolved]
    have settled : Invariant rank {s with hex := {s.hex with phase := .idle}} :=
      ⟨valid.ledger,valid.heard,⟨fun busy => ⟨rfl,(valid.exclusive.1 busy).2⟩,fun busy => absurd rfl busy⟩,valid.command,
        trivial,valid.granted⟩
    simp only [resolve,HexProxy.resolveStep]
    apply adopt_preserves settled
    · intro adopted
      simp only [HexGood,resolved] at good
      exact good adopted
    · exact .inl ⟨commandIdle busy,rfl⟩

-- A matching REJECTED_CTX finds a context that has given out no number.
theorem rejected_adoptable (valid : Invariant rank s) (src : NodeId) (ack : CommandAck) (ctx own : CtxId) (seq : Seq)
    (heard : s.heardAck = some ⟨src,ack,ctx⟩) (held : Holding s src own seq) (other : ctx ≠ own) : Adoptable rank s src ctx := by
  obtain ⟨last,named⟩ := valid.heard ⟨src,ack,ctx⟩ heard
  simp only at last named
  have fresh : s.drawn src ctx = 0 := by
    by_cases now : s.lastCtx src = (s.registry.state src).ctxId
    · rcases held.2 with same | undrawn
      · exact absurd (last.trans (now.trans same)) other
      · rw [last,now]
        exact undrawn
    · rw [last]
      exact valid.ledger.ahead src now
  refine ⟨fresh,?_,?_,?_⟩
  · rw [← last]
    exact fresh
  · rw [← last]
    exact named
  · rw [← last]

theorem handAck_preserves (valid : Invariant rank s) (nowMs : UInt32) (conforming : Conforming s (.handAck nowMs)) :
    Invariant rank (step s (.handAck nowMs)) := by
  simp only [step,State.handAck]
  split
  · exact valid
  · rename_i src ack ctx heard
    have rejected := conforming ⟨src,ack,ctx⟩ heard
    have hexGood := valid.hex
    have commandGood := valid.command
    have noneHeard : ∀ h ∈ (none : Option HeardAck), h.ctx = s.lastCtx h.src ∧ h.ctx ≠ 0 := by
      intro _ absent
      cases absent
    have unclaimed : ∀ command, CommandGood rank {s with command := command} →
        (command.phase ≠ .idle → s.command.phase ≠ .idle) →
        Invariant rank {s with heardAck := none,command := command} := by
      intro command good busy
      exact ⟨valid.ledger,noneHeard,⟨fun now => valid.exclusive.1 (busy now),valid.exclusive.2⟩,good,valid.hex,valid.granted⟩
    have claimed : ∀ hex, HexGood rank {s with hex := hex} → s.hex.phase ≠ .idle → Invariant rank {s with heardAck := none,hex := hex} := by
      intro hex good busy
      refine ⟨valid.ledger,noneHeard,⟨?_,fun _ => valid.exclusive.2 busy⟩,valid.command,good,valid.granted⟩
      intro commandBusy
      exact absurd (valid.exclusive.1 commandBusy).1 busy
    rcases s.hex.onAck_cases src ack ctx nowMs with ⟨-,unmatched⟩ | ⟨mine,isRejected,-,-,adopt⟩ | ⟨mine,isRejected,-,retry,-⟩ |
      ⟨mine,-,outcome,-,done⟩
    · simp only [unmatched,Bool.false_eq_true,ite_false]
      rcases s.command.onAck_cases src ack ctx nowMs with ⟨-,same⟩ | ⟨mine,isRejected,-,retry,-⟩ | ⟨mine,isRejected,-,-,adopt⟩ |
        ⟨mine,isRejected,used,-⟩ | ⟨mine,-,done⟩
      · rw [same]
        exact unclaimed s.command commandGood id
      · exact absurd retry (by simp [((rejected isRejected).2 mine).1])
      · rw [adopt]
        refine unclaimed _ ?_ (by simp [mine.1])
        intro _
        simp only [CommandGood,mine.1] at commandGood
        have other := ((rejected isRejected).2 mine).2
        obtain ⟨-,toNode,-⟩ := mine
        subst toNode
        exact rejected_adoptable valid _ ack ctx _ _ heard commandGood.2.2 other
      · simp only [CommandGood,mine.1] at commandGood
        exact absurd used (by simp [commandGood.1])
      · rw [done]
        refine unclaimed _ ?_ (by simp [mine.1])
        intro unconfirmed
        cases unconfirmed
    · simp only [adopt,ite_true]
      refine claimed _ ?_ (by simp [mine.1])
      intro _
      simp only [HexGood,mine.1] at hexGood
      have own := hexGood.2.2 mine.2.1
      have other := ((rejected isRejected).1 mine).2
      obtain ⟨-,-,toNode,-⟩ := mine
      subst toNode
      exact rejected_adoptable valid _ ack ctx _ _ heard own other
    · exact absurd retry (by simp [((rejected isRejected).1 mine).1])
    · simp only [done,ite_true]
      refine claimed _ ?_ (by simp [mine.1])
      intro adopted
      simp only [HexGood,mine.1] at hexGood
      exact absurd adopted (by simp [hexGood.2.1])

theorem hexRsp_preserves (valid : Invariant rank s) (src : NodeId) (seq : Seq) (rsp : HexRsp) :
    Invariant rank (step s (.hexRsp src seq rsp)) := by
  simp only [step]
  rcases s.hex.onRsp_cases src seq rsp with same | ⟨awaiting,-,-,answer,-,resolved⟩
  · rw [same]
    exact valid
  · rw [resolved]
    have busy : s.hex.phase ≠ .idle := by simp [awaiting]
    have good := valid.hex
    simp only [HexGood,awaiting] at good
    refine ⟨valid.ledger,valid.heard,⟨?_,fun _ => valid.exclusive.2 busy⟩,valid.command,?_,valid.granted⟩
    · intro commandBusy
      exact absurd (valid.exclusive.1 commandBusy).1 busy
    · intro adopted
      exact absurd adopted (by simp [good.2.1])

theorem aired_preserves (valid : Invariant rank s) (airedMs : UInt32) :
    Invariant rank (step s (.commandAired airedMs)) ∧ Invariant rank (step s (.hexAired airedMs)) := by
  have commandGood := valid.command
  have hexGood := valid.hex
  simp only [step,CommandPath.onAired,HexProxy.onAired]
  constructor
  · split
    · rename_i awaiting
      refine ⟨valid.ledger,valid.heard,valid.exclusive,?_,valid.hex,valid.granted⟩
      simp only [CommandGood,awaiting] at commandGood ⊢
      exact commandGood
    · exact valid
  · split
    · rename_i awaiting
      refine ⟨valid.ledger,valid.heard,valid.exclusive,valid.command,?_,valid.granted⟩
      simp only [HexGood,awaiting] at hexGood ⊢
      exact hexGood
    · exact valid

theorem idle_parts : s.idle = true ↔ s.command.phase = .idle ∧ s.hex.phase = .idle ∧ s.reading = none := by
  simp [State.idle,CommandPath.busy,HexProxy.busy,and_assoc]

theorem read_preserves (valid : Invariant rank s) (known : Bool) (r : Reading) :
    Invariant rank (if s.idle && known then {s with reading := some r} else s) := by
  split
  · rename_i free
    obtain ⟨commandIdle,hexIdle,-⟩ := idle_parts.mp (Bool.and_eq_true_iff.mp free).1
    exact ⟨valid.ledger,valid.heard,⟨fun busy => absurd commandIdle busy,fun busy => absurd hexIdle busy⟩,valid.command,valid.hex,
      valid.granted⟩
  · exact valid

theorem take_parts (node : NodeId) (seq : Seq) (s' : State) (taken : s.take node = some (seq,s')) :
    ∃ after, s.registry.takeCmdSeq node = some (seq,after) ∧
      s' = {s with registry := after,drawn := drawnAfter s.registry s.drawn node} := by
  unfold State.take at taken
  split at taken
  · cases taken
  · rename_i seq' after drew
    obtain ⟨rfl,rfl⟩ : seq' = seq ∧ _ = s' := by simpa only [Option.some.injEq,Prod.mk.injEq] using taken
    exact ⟨after,drew,rfl⟩

theorem otherDraw_preserves (valid : Invariant rank s) (node : NodeId) (ordered : Ordered rank s (.otherDraw node)) :
    Invariant rank (step s (.otherDraw node)) := by
  simp only [step]
  split
  · rename_i free
    obtain ⟨commandIdle,hexIdle,-⟩ := idle_parts.mp free
    split
    · exact valid
    · rename_i seq s' taken
      obtain ⟨after,drew,rfl⟩ := take_parts node seq s' taken
      obtain ⟨-,-,book⟩ := valid.ledger.draw node seq after drew ordered
      exact ⟨book,valid.heard,valid.exclusive,by simp [CommandGood,commandIdle],by simp [HexGood,hexIdle],valid.granted⟩
  · exact valid

-- The one number a submission takes is its grant: the registry still stands in the context the submission read.
theorem granted_parts (valid : Invariant rank s) (r : Reading) (seq : Seq) (s' : State) (taken : s.take r.dst = some (seq,s'))
    (room : s.drawn r.dst (s.registry.state r.dst).ctxId + 1 < 65535) (still : (s.registry.state r.dst).ctxId = r.ctx) :
    s'.command = s.command ∧ s'.hex = s.hex ∧ s'.heardAck = s.heardAck ∧ s'.lastCtx = s.lastCtx ∧ s'.sent = s.sent ∧
    (s'.granted r seq).grants = ⟨r.dst,(s'.granted r seq).current,r.ctx,seq⟩ :: s.grants ∧
    Holding (s'.granted r seq) r.dst r.ctx seq ∧
    Ledger rank (s'.granted r seq).registry (s'.granted r seq).drawn s.lastCtx (s'.granted r seq).grants (s'.granted r seq).submissions := by
  obtain ⟨after,drew,rfl⟩ := take_parts r.dst seq s' taken
  obtain ⟨number,ctxKept,book⟩ := valid.ledger.draw r.dst seq after drew room
  have grown : drawnAfter s.registry s.drawn r.dst r.dst r.ctx = seq.toNat := by
    rw [number,← still]
    exact drawnAfter_here r.dst
  refine ⟨rfl,rfl,rfl,rfl,rfl,rfl,⟨List.mem_cons_self,.inl ((ctxKept r.dst).trans still)⟩,?_⟩
  refine book.grant ⟨r.dst,s.submissions,r.ctx,seq⟩ rfl ⟨?_,Nat.le_of_eq grown.symm⟩ ?_
  · change 1 ≤ seq.toNat
    omega
  · intro f member sameNode sameCtx
    have bounded := (valid.ledger.numbered f member).2
    simp only at sameNode sameCtx
    rw [sameNode,sameCtx,← still] at bounded
    change f.seq.toNat < seq.toNat
    omega

theorem draw_preserves (valid : Invariant rank s) (nowMs : UInt32) (ordered : Ordered rank s (.draw nowMs))
    (conforming : Conforming s (.draw nowMs)) : Invariant rank (step s (.draw nowMs)) := by
  simp only [step]
  split
  · exact valid
  · rename_i r reading
    have room := ordered r reading
    have still := conforming r reading
    have commandIdle : s.command.phase = .idle := by
      by_contra busy
      simpa [reading] using (valid.exclusive.1 busy).2
    have hexIdle : s.hex.phase = .idle := by
      by_contra busy
      simpa [reading] using valid.exclusive.2 busy
    have refused : Invariant rank {s with reading := none} :=
      ⟨valid.ledger,valid.heard,⟨fun busy => absurd commandIdle busy,fun _ => rfl⟩,valid.command,valid.hex,valid.granted⟩
    cases r with
    | command req ctx =>
        simp only [State.drawFor]
        split
        · exact refused
        · rename_i seq s' taken
          obtain ⟨sameCommand,sameHex,sameHeard,sameLast,sameSent,grants,held,book⟩ :=
            granted_parts valid (.command req ctx) seq s' taken room still
          refine ⟨?_,?_,⟨fun _ => ⟨?_,rfl⟩,fun _ => rfl⟩,?_,?_,?_⟩
          · simpa only [State.granted,sameLast] using book
          · simpa only [State.granted,sameHeard,sameLast] using valid.heard
          · simp only [State.granted,sameHex,hexIdle]
          · simp only [CommandGood,CommandPath.submit,sameCommand,commandIdle,ne_eq,not_true,ite_false]
            exact ⟨trivial,trivial,held⟩
          · simp [HexGood,State.granted,sameHex,hexIdle]
          · intro f member
            simp only [State.granted,sameSent] at member
            change f ∈ (s'.granted (.command req ctx) seq).grants
            rw [grants]
            exact List.mem_cons_of_mem _ (valid.granted f member)
    | hex req ctx =>
        simp only [State.drawFor]
        split
        · split
          · exact refused
          · rename_i seq s' taken
            obtain ⟨sameCommand,sameHex,sameHeard,sameLast,sameSent,grants,held,book⟩ :=
              granted_parts valid (.hex req ctx) seq s' taken room still
            refine ⟨?_,?_,⟨fun busy => ?_,fun _ => rfl⟩,?_,?_,?_⟩
            · simpa only [State.granted,sameLast] using book
            · simpa only [State.granted,sameHeard,sameLast] using valid.heard
            · simp only [State.granted,sameCommand] at busy
              exact absurd commandIdle busy
            · simp [CommandGood,State.granted,sameCommand,commandIdle]
            · simp only [HexGood,HexProxy.submit,sameHex,hexIdle,ne_eq,not_true,ite_false]
              exact ⟨trivial,trivial,fun _ => held⟩
            · intro f member
              simp only [State.granted,sameSent] at member
              change f ∈ (s'.granted (.hex req ctx) seq).grants
              rw [grants]
              exact List.mem_cons_of_mem _ (valid.granted f member)
        · refine ⟨valid.ledger,valid.heard,⟨fun busy => absurd commandIdle busy,fun _ => rfl⟩,valid.command,?_,valid.granted⟩
          simp [HexGood,HexProxy.submit,hexIdle]

theorem step_preserves (injective : ∀ n, Function.Injective (rank n)) (s : State) (e : Event) (valid : Invariant rank s)
    (permitted : Ordered rank s e ∧ Conforming s e) : Invariant rank (step s e) := by
  cases e with
  | hear hdr ack nowMs => exact hear_preserves valid injective hdr ack nowMs permitted.1
  | handAck nowMs => exact handAck_preserves valid nowMs permitted.2
  | hexRsp src seq rsp => exact hexRsp_preserves valid src seq rsp
  | readCommand req => exact read_preserves valid _ _
  | readHex req => exact read_preserves valid _ _
  | draw nowMs => exact draw_preserves valid nowMs permitted.1 permitted.2
  | otherDraw node => exact otherDraw_preserves valid node permitted.1
  | commandTick nowMs queued => exact commandTick_preserves valid nowMs queued
  | hexTick nowMs armed queued => exact hexTick_preserves valid nowMs armed queued
  | commandAired airedMs => exact (aired_preserves valid airedMs).1
  | hexAired airedMs => exact (aired_preserves valid airedMs).2

theorem initial_invariant : Invariant rank ({} : State) where
  ledger := by
    refine ⟨fun _ => rfl,fun _ _ _ _ => rfl,fun _ _ => rfl,fun _ => .inl rfl,?_,?_,?_⟩ <;> intro _ member <;> cases member
  heard := by
    intro _ absent
    cases absent
  exclusive := ⟨fun busy => absurd rfl busy,fun _ => rfl⟩
  command := trivial
  hex := trivial
  granted := by
    intro _ member
    cases member

theorem frames_of_different_submissions_differ (injective : ∀ n, Function.Injective (rank n)) (s : State)
    (path : Reached step (fun s e => Ordered rank s e ∧ Conforming s e) {} s) : Distinct s := by
  have valid := path.invariant (Invariant rank) initial_invariant (step_preserves injective)
  intro f sent g sent' differs
  exact valid.ledger.apart f (valid.granted f sent) g (valid.granted g sent') differs

end

def rankByValue : NodeId → CtxId → Nat := fun _ ctx => ctx.toNat

theorem rankByValue_injective (n : NodeId) : Function.Injective (rankByValue n) := by
  intro a b (equal : a.toNat = b.toNat)
  exact UInt32.toNat_inj.mp equal

def heardIn (ctx : CtxId) : Header := {src := 0x01,dst := nodeBridge,ctxId := ctx,type := .commandAck}

-- OPEN, the node reboots before answering it, and OPEN again in the new context.
def openTwice : List Event :=
  [.hear (heardIn 5) none 0,.readCommand {dst := 0x01,cmd := cmdOpen},.draw 1,.commandTick 1 true,
    .hear (heardIn 7) (some ⟨1,AckResult.rejectedCtx.code,0⟩) 2,.handAck 2,.commandTick 3 true,
    .readCommand {dst := 0x01,cmd := cmdOpen},.draw 4,.commandTick 4 true]

theorem frames_of_different_submissions_differ_open_twice :
    (openTwice.foldl step {}).sent = [⟨0x01,1,7,1⟩,⟨0x01,0,5,1⟩] ∧ Distinct (openTwice.foldl step {}) := by
  have permitted : Follows step (fun s e => Ordered rankByValue s e ∧ Conforming s e) {} openTwice := by decide +kernel
  refine ⟨by decide +kernel,?_⟩
  exact frames_of_different_submissions_differ rankByValue_injective _ permitted.reached

-- A status request is sent again as (7, 1) after the resync; the OPEN that follows draws (7, 1) too.
def resyncThenOpen : List Event :=
  [.hear (heardIn 5) none 0,.readCommand {dst := 0x01,cmd := cmdRequestStatus},.draw 1,.commandTick 1 true,
    .hear (heardIn 7) (some ⟨1,AckResult.rejectedCtx.code,0⟩) 2,.handAck 2,.commandTick 3 true,
    .hear (heardIn 7) (some ⟨1,AckResult.accepted.code,0⟩) 4,.handAck 4,.commandTick 5 true,
    .readCommand {dst := 0x01,cmd := cmdOpen},.draw 6,.commandTick 6 true]

theorem resync_repeats_a_sequence_number :
    ¬ ∀ s, Reached step (Ordered rankByValue) {} s → Distinct s := by
  intro always
  have permitted : Follows step (Ordered rankByValue) {} resyncThenOpen := by decide +kernel
  exact absurd (always _ permitted.reached) (by decide +kernel)

end LoraRan.System.SequenceSpace
