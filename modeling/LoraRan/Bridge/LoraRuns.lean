import LoraRan.Bridge.LoraLink
import LoraRan.Library.StepSystem

namespace LoraRan.Bridge
open Protocol Link Library.Clock Library.StepSystem

def Left.onAir : Left → Bool
  | .sent | .timedOut => true
  | .refused | .noRadio => false

-- The CADs before a transmission: none but the last found the channel free, and a frame goes out over a busy one only when its retries are spent.
def Earned (limit retries : UInt8) (cads : List CadResult) : Prop :=
  ∃ before last, cads = before ++ [last] ∧ (∀ c ∈ before, c ≠ .free) ∧ (last = .free ∨ retries.toNat ≤ before.length) ∧ before.length ≤ limit.toNat

def RadioAct.Proper (limit : UInt8) : RadioAct → Prop
  | .ended _ => True
  | .scan _ irq _ => irq.rxDone = false ∧ irq.preamble = false ∧ irq.header = false
  | .transmit _ _ cads retries phy taken => phy = taken ∧ Earned limit retries cads

-- No scan in the holdoff behind a reception.
def Apart : RadioAct → RadioAct → Prop
  | .ended at_, .scan later _ holdoffMs => at_ + holdoffMs.toNat ≤ later
  | _, _ => True

namespace LoraLink

def hand (l : LoraLink) : List TxMessage := if l.haveTx then [l.tx] else []

def onAir (l : LoraLink) : List TxMessage := if l.mode = .transmit ∧ l.haveTx then [l.tx] else []

def aired (acts : List RadioAct) : List TxMessage :=
  acts.filterMap fun a => match a with
    | .transmit _ tx _ _ _ _ => some tx
    | _ => none

def leftAs (gone : List (TxMessage × Left)) (how : Left) : UInt32 := UInt32.ofNat (gone.countP fun g => g.2 = how)

-- The ticket of the last frame to leave that had one.
def lastTicket (gone : List (TxMessage × Left)) : UInt32 := gone.foldl (fun t g => if g.1.ticket = 0 then t else g.1.ticket) 0

structure Counted (l : LoraLink) : Prop where
  sent : l.txFrames = leftAs l.gone .sent
  timedOut : l.stats.txTimeouts = leftAs l.gone .timedOut
  refused : l.stats.txErrors = leftAs l.gone .refused
  noRadio : l.stats.txDroppedNoRadio = leftAs l.gone .noRadio

-- The end of the last reception, as the CAD guard keeps it.
structure Ends (l : LoraLink) : Prop where
  none_ : l.arrival.receptionEnded = false → ∀ at_, .ended at_ ∉ l.acts
  last : l.arrival.receptionEnded = true → ∃ last ≤ l.now, l.arrival.receptionEndMs = stamp last ∧ ∀ at_, .ended at_ ∈ l.acts → at_ ≤ last

-- What holds at every point of a pass.
structure Kept (limit : UInt8) (l : LoraLink) : Prop where
  pending : l.haveTx = true ↔ l.access.state ≠ .idle
  order : l.asked = l.gone.map Prod.fst ++ (l.hand ++ l.queue)
  counted : l.Counted
  once : aired l.acts = (l.gone.filter fun g => g.2.onAir).map Prod.fst ++ l.onAir
  proper : ∀ a ∈ l.acts, a.Proper limit
  apart : l.acts.Pairwise Apart
  ends : l.Ends
  settings : l.haveTx = true → l.taken = l.phy
  tickets : l.txDoneTicket = lastTicket l.gone
  limited : l.access.cfg.cadRetries ≤ limit
  waiting : l.access.state = .waiting → (∀ c ∈ l.cads, c ≠ .free) ∧ l.cads.length = l.access.backoffs.toNat ∧ l.access.backoffs ≤ limit

-- What holds between passes besides: the mode and the frame in hand agree.
structure Settled (limit : UInt8) (l : LoraLink) : Prop where
  kept : l.Kept limit
  down : l.mode = .down → l.haveTx = false
  cad : l.mode = .cad → l.access.state = .waiting
  transmit : l.mode = .transmit → l.access.state = .ready
  ready : l.access.state = .ready → l.mode = .transmit

section
variable {limit : UInt8} {l : LoraLink} {txs : List TxMessage}

-- A step that moves only what `Kept` does not speak of.
structure Alike (l l' : LoraLink) : Prop where
  haveTx : l'.haveTx = l.haveTx
  access : l'.access = l.access
  tx : l'.tx = l.tx
  queue : l'.queue = l.queue
  asked : l'.asked = l.asked
  gone : l'.gone = l.gone
  sent : l'.txFrames = l.txFrames
  timedOut : l'.stats.txTimeouts = l.stats.txTimeouts
  refused : l'.stats.txErrors = l.stats.txErrors
  noRadio : l'.stats.txDroppedNoRadio = l.stats.txDroppedNoRadio
  acts : l'.acts = l.acts
  onAir : l'.onAir = l.onAir
  ended : l'.arrival.receptionEnded = l.arrival.receptionEnded
  endMs : l'.arrival.receptionEndMs = l.arrival.receptionEndMs
  now : l'.now = l.now
  taken : l'.taken = l.taken
  phy : l'.phy = l.phy
  ticket : l'.txDoneTicket = l.txDoneTicket
  cads : l'.cads = l.cads

theorem Kept.alike {l' : LoraLink} (kept : l.Kept limit) (same : Alike l l') : l'.Kept limit := by
  refine ⟨?_,?_,⟨?_,?_,?_,?_⟩,?_,?_,?_,⟨?_,?_⟩,?_,?_,?_,?_⟩
  · rw [same.haveTx,same.access]
    exact kept.pending
  · rw [same.asked,same.gone,same.queue,hand,same.haveTx,same.tx]
    exact kept.order
  · rw [same.sent,same.gone]
    exact kept.counted.sent
  · rw [same.timedOut,same.gone]
    exact kept.counted.timedOut
  · rw [same.refused,same.gone]
    exact kept.counted.refused
  · rw [same.noRadio,same.gone]
    exact kept.counted.noRadio
  · rw [same.acts,same.gone,same.onAir]
    exact kept.once
  · rw [same.acts]
    exact kept.proper
  · rw [same.acts]
    exact kept.apart
  · rw [same.acts,same.ended]
    exact kept.ends.none_
  · rw [same.acts,same.ended,same.endMs,same.now]
    exact kept.ends.last
  · rw [same.haveTx,same.taken,same.phy]
    exact kept.settings
  · rw [same.ticket,same.gone]
    exact kept.tickets
  · rw [same.access]
    exact kept.limited
  · rw [same.access,same.cads]
    exact kept.waiting

-- A counter that no frame moves as it leaves.
theorem Kept.noted (kept : l.Kept limit) (stats : LoraStats) (timedOut : stats.txTimeouts = l.stats.txTimeouts)
    (refused : stats.txErrors = l.stats.txErrors) (noRadio : stats.txDroppedNoRadio = l.stats.txDroppedNoRadio) :
    Kept limit {l with stats := stats} := by
  refine kept.alike ?_
  constructor <;> first | rfl | assumption

theorem enterMode_is (l : LoraLink) (next : RadioMode) :
    ∃ deafMs, l.enterMode next = {l with stats := {l.stats with rxDeafMs := deafMs},mode := next,modeStartMs := l.nowMs} := ⟨_,rfl⟩

theorem alike_enterMode (l : LoraLink) (next : RadioMode) (air : l.haveTx = true → (next = .transmit ↔ l.mode = .transmit)) :
    Alike l (l.enterMode next) := by
  obtain ⟨deafMs,is⟩ := enterMode_is l next
  rw [is]
  refine ⟨rfl,rfl,rfl,rfl,rfl,rfl,rfl,rfl,rfl,rfl,rfl,?_,rfl,rfl,rfl,rfl,rfl,rfl,rfl⟩
  change (if next = .transmit ∧ l.haveTx = true then [l.tx] else []) = if l.mode = .transmit ∧ l.haveTx = true then [l.tx] else []
  cases have_ : l.haveTx with
  | false => rw [if_neg (by simp),if_neg (by simp)]
  | true =>
      by_cases here : l.mode = .transmit
      · rw [if_pos ⟨(air have_).mpr here,rfl⟩,if_pos ⟨here,rfl⟩]
      · rw [if_neg fun both => here ((air have_).mp both.1),if_neg fun both => here both.1]

theorem leftAs_snoc (gone : List (TxMessage × Left)) (tx : TxMessage) (how other : Left) :
    leftAs (gone ++ [(tx,how)]) other = if how = other then leftAs gone other + 1 else leftAs gone other := by
  unfold leftAs
  rw [List.countP_append,List.countP_singleton]
  by_cases same : how = other
  · rw [if_pos (decide_eq_true same),if_pos same,UInt32.ofNat_add]
    rfl
  · rw [if_neg (fun on => same (of_decide_eq_true on)),if_neg same]
    rfl

theorem lastTicket_snoc (gone : List (TxMessage × Left)) (tx : TxMessage) (how : Left) :
    lastTicket (gone ++ [(tx,how)]) = if tx.ticket = 0 then lastTicket gone else tx.ticket := by
  unfold lastTicket
  rw [List.foldl_append]
  rfl

-- The counter a frame moves as it leaves.
def bumped (l : LoraLink) : Left → LoraLink
  | .sent => {l with txFrames := l.txFrames + 1}
  | .timedOut => {l with stats := {l.stats with txTimeouts := l.stats.txTimeouts + 1}}
  | .refused => {l with stats := {l.stats with txErrors := l.stats.txErrors + 1}}
  | .noRadio => {l with stats := {l.stats with txDroppedNoRadio := l.stats.txDroppedNoRadio + 1}}

theorem Counted.bumped (counted : l.Counted) (how : Left) (tx : TxMessage) :
    (l.bumped how).txFrames = leftAs (l.gone ++ [(tx,how)]) .sent ∧ (l.bumped how).stats.txTimeouts = leftAs (l.gone ++ [(tx,how)]) .timedOut ∧
      (l.bumped how).stats.txErrors = leftAs (l.gone ++ [(tx,how)]) .refused ∧
      (l.bumped how).stats.txDroppedNoRadio = leftAs (l.gone ++ [(tx,how)]) .noRadio := by
  rw [leftAs_snoc,leftAs_snoc,leftAs_snoc,leftAs_snoc,← counted.sent,← counted.timedOut,← counted.refused,← counted.noRadio]
  cases how with
  | sent => exact ⟨rfl,rfl,rfl,rfl⟩
  | timedOut => exact ⟨rfl,rfl,rfl,rfl⟩
  | refused => exact ⟨rfl,rfl,rfl,rfl⟩
  | noRadio => exact ⟨rfl,rfl,rfl,rfl⟩

theorem noteTxDone_is (l : LoraLink) :
    l.noteTxDone = {l with
      txDoneTicket := if l.tx.ticket = 0 then l.txDoneTicket else l.tx.ticket
      txDoneMs := if l.tx.ticket = 0 then l.txDoneMs else l.nowMs} := by
  unfold noteTxDone
  split
  · rfl
  · rfl

-- A frame that leaves: on the air exactly when it was being transmitted.
theorem Kept.endTx (kept : l.Kept limit) (how : Left) (held : l.haveTx = true) (air : how.onAir = true ↔ l.mode = .transmit) :
    ((l.bumped how).endTx how).Kept limit ∧ ((l.bumped how).endTx how).haveTx = false ∧ ((l.bumped how).endTx how).mode = l.mode ∧
      ((l.bumped how).endTx how).access.state = .idle := by
  have fields : (l.bumped how).tx = l.tx ∧ (l.bumped how).gone = l.gone ∧ (l.bumped how).mode = l.mode ∧ (l.bumped how).asked = l.asked ∧
      (l.bumped how).queue = l.queue ∧ (l.bumped how).acts = l.acts ∧ (l.bumped how).arrival = l.arrival ∧ (l.bumped how).now = l.now ∧
      (l.bumped how).txDoneTicket = l.txDoneTicket ∧ (l.bumped how).access = l.access := by
    cases how <;> exact ⟨rfl,rfl,rfl,rfl,rfl,rfl,rfl,rfl,rfl,rfl⟩
  obtain ⟨tx,gone,mode,asked,queue,acts,arrival,now,ticket,access⟩ := fields
  have counted := kept.counted.bumped how l.tx
  unfold LoraLink.endTx
  rw [noteTxDone_is]
  refine ⟨⟨?_,?_,?_,?_,?_,?_,?_,?_,?_,?_,?_⟩,rfl,mode,rfl⟩
  · exact ⟨nofun,fun other => absurd rfl other⟩
  · change (l.bumped how).asked = ((l.bumped how).gone ++ [((l.bumped how).tx,how)]).map Prod.fst ++ ([] ++ (l.bumped how).queue)
    rw [asked,gone,tx,queue,kept.order,hand,if_pos held,List.map_append]
    simp only [List.map_cons,List.map_nil,List.append_assoc,List.nil_append]
  · refine ⟨?_,?_,?_,?_⟩
    · change (l.bumped how).txFrames = leftAs ((l.bumped how).gone ++ [((l.bumped how).tx,how)]) .sent
      rw [gone,tx]
      exact counted.1
    · change (l.bumped how).stats.txTimeouts = leftAs ((l.bumped how).gone ++ [((l.bumped how).tx,how)]) .timedOut
      rw [gone,tx]
      exact counted.2.1
    · change (l.bumped how).stats.txErrors = leftAs ((l.bumped how).gone ++ [((l.bumped how).tx,how)]) .refused
      rw [gone,tx]
      exact counted.2.2.1
    · change (l.bumped how).stats.txDroppedNoRadio = leftAs ((l.bumped how).gone ++ [((l.bumped how).tx,how)]) .noRadio
      rw [gone,tx]
      exact counted.2.2.2
  · change aired (l.bumped how).acts = (((l.bumped how).gone ++ [((l.bumped how).tx,how)]).filter fun g => g.2.onAir).map Prod.fst ++
      (if (l.bumped how).mode = .transmit ∧ false = true then [(l.bumped how).tx] else [])
    rw [acts,gone,tx,kept.once,if_neg (by simp),onAir,List.append_nil,List.filter_append,List.map_append]
    congr 1
    by_cases here : l.mode = .transmit
    · rw [if_pos ⟨here,held⟩,List.filter_singleton,air.mpr here]
      rfl
    · have off : how.onAir = false := by
        rw [← Bool.not_eq_true]
        exact fun on => here (air.mp on)
      rw [if_neg fun both => here both.1,List.filter_singleton,off]
      rfl
  · rw [acts]
    exact kept.proper
  · rw [acts]
    exact kept.apart
  · refine ⟨?_,?_⟩
    · rw [arrival,acts]
      exact kept.ends.none_
    · rw [arrival,acts,now]
      exact kept.ends.last
  · nofun
  · change (if (l.bumped how).tx.ticket = 0 then (l.bumped how).txDoneTicket else (l.bumped how).tx.ticket) =
      lastTicket ((l.bumped how).gone ++ [((l.bumped how).tx,how)])
    rw [tx,ticket,gone,lastTicket_snoc,kept.tickets]
  · change (l.bumped how).access.cfg.cadRetries ≤ limit
    rw [access]
    exact kept.limited
  · nofun

theorem Alike.trans {l' l'' : LoraLink} (first : Alike l l') (second : Alike l' l'') : Alike l l'' :=
  ⟨second.1.trans first.1,second.2.trans first.2,second.3.trans first.3,second.4.trans first.4,second.5.trans first.5,second.6.trans first.6,
    second.7.trans first.7,second.8.trans first.8,second.9.trans first.9,second.10.trans first.10,second.11.trans first.11,
    second.12.trans first.12,second.13.trans first.13,second.14.trans first.14,second.15.trans first.15,second.16.trans first.16,
    second.17.trans first.17,second.18.trans first.18,second.19.trans first.19⟩

theorem Kept.idle (kept : l.Kept limit) (empty : l.haveTx = false) : l.access.state = .idle := by
  by_contra busy
  exact Bool.false_ne_true (empty.symm.trans (kept.pending.mpr busy))

-- A pass that ends with the radio receiving and nothing that waits to be transmitted.
theorem Kept.settled (kept : l.Kept limit) (mode : l.mode = .receive) (waits : l.access.state ≠ .ready) : l.Settled limit :=
  ⟨kept,fun down => RadioMode.noConfusion (mode.symm.trans down),fun cad => RadioMode.noConfusion (mode.symm.trans cad),
    fun transmit => RadioMode.noConfusion (mode.symm.trans transmit),fun ready => absurd ready waits⟩

theorem Kept.down (kept : l.Kept limit) (mode : l.mode = .down) (empty : l.haveTx = false) : l.Settled limit := by
  have idle := kept.idle empty
  refine ⟨kept,fun _ => empty,?_,?_,?_⟩
  · intro cad
    exact RadioMode.noConfusion (mode.symm.trans cad)
  · intro transmit
    exact RadioMode.noConfusion (mode.symm.trans transmit)
  · intro ready
    exact AccessState.noConfusion (idle.symm.trans ready)

-- The radio given up, before the frame in hand is.
def fallen (l : LoraLink) (status : Int16) : LoraLink :=
  let l := {l with ready := false}.enterMode .down
  {l with beginFailedMs := l.nowMs,stats := {l.stats with lastBeginStatus := status,beginFailures := l.stats.beginFailures + 1}}

theorem radioFailed_is (l : LoraLink) (status : Int16) :
    l.radioFailed status = if (l.fallen status).haveTx then ((l.fallen status).bumped .noRadio).endTx .noRadio else l.fallen status := rfl

theorem alike_fallen (l : LoraLink) (status : Int16) (off : l.haveTx = true → l.mode ≠ .transmit) :
    Alike l (l.fallen status) ∧ (l.fallen status).mode = .down := by
  have first : Alike l {l with ready := false} := by constructor <;> rfl
  have second := alike_enterMode {l with ready := false} .down fun have_ => ⟨nofun,fun here => absurd here (off have_)⟩
  unfold fallen
  obtain ⟨deafMs,is⟩ := enterMode_is {l with ready := false} .down
  rw [is] at second ⊢
  exact ⟨(first.trans second).trans (by constructor <;> rfl),rfl⟩

theorem Kept.radioFailed (kept : l.Kept limit) (status : Int16) (off : l.haveTx = true → l.mode ≠ .transmit) : (l.radioFailed status).Settled limit := by
  obtain ⟨same,mode⟩ := alike_fallen l status off
  have kept' := kept.alike same
  rw [radioFailed_is]
  cases have_ : (l.fallen status).haveTx with
  | false => exact kept'.down mode have_
  | true =>
      obtain ⟨ended,empty,still,_⟩ := kept'.endTx .noRadio have_ ⟨nofun,fun here => RadioMode.noConfusion (mode.symm.trans here)⟩
      exact ended.down (still.trans mode) empty

theorem Kept.startReceive (kept : l.Kept limit) (status : Int16) (off : l.haveTx = true → l.mode ≠ .transmit) (waits : l.access.state ≠ .ready) :
    (l.startReceive status).Settled limit := by
  have same : Alike l {l with dio1 := false,arrival := l.arrival.reset} := by constructor <;> rfl
  unfold LoraLink.startReceive
  split
  · exact (kept.alike same).radioFailed status off
  · exact (kept.alike (same.trans (alike_enterMode _ .receive fun have_ => ⟨nofun,fun here => absurd here (off have_)⟩))).settled rfl waits

-- The chip as tryBegin leaves it, before the mode changes.
def began (l : LoraLink) : LoraLink :=
  {l with
    stats := {l.stats with lastBeginStatus := 0}
    dio1 := false
    arrival := l.arrival.reset.setBounds (preambleToHeaderMs l.phy) kRxInProgressMaxMs (burstHoldoffMs l.phy)}

theorem alike_began (l : LoraLink) : Alike l l.began := by constructor <;> rfl

theorem tryBegin_is (l : LoraLink) : l.tryBegin 0 = {l.began.enterMode .receive with ready := true} := by
  unfold LoraLink.tryBegin
  rw [if_neg (not_not.mpr rfl)]
  rfl

theorem Kept.tryBegin (kept : l.Kept limit) (status : Int16) (empty : l.haveTx = false) : (l.tryBegin status).Settled limit := by
  have off : l.haveTx = true → l.mode ≠ .transmit := fun have_ => absurd (empty.symm.trans have_) Bool.false_ne_true
  by_cases failed : status ≠ 0
  · rw [LoraLink.tryBegin,if_pos failed]
    exact kept.radioFailed status off
  · rw [not_not.mp failed]
    have same := alike_began l
    obtain ⟨deafMs,entered⟩ := enterMode_is l.began .receive
    have alike := alike_enterMode l.began .receive fun have_ => ⟨nofun,fun here => absurd here (off have_)⟩
    have kept' := kept.alike (same.trans alike)
    rw [tryBegin_is]
    refine Kept.settled (kept'.alike ?_) ?_ ?_
    · constructor <;> rfl
    · rw [entered]
    · change (l.began.enterMode .receive).access.state ≠ .ready
      rw [(same.trans alike).access,kept.idle empty]
      exact nofun

theorem aired_snoc (acts : List RadioAct) (a : RadioAct) : aired (acts ++ [a]) = aired acts ++ aired [a] := List.filterMap_append

theorem Ends.before (ends : l.Ends) (at_ : Nat) (ended : .ended at_ ∈ l.acts) : at_ ≤ l.now := by
  cases known : l.arrival.receptionEnded with
  | false => exact absurd ended (ends.none_ known at_)
  | true =>
      obtain ⟨last,early,_,latest⟩ := ends.last known
      exact (latest at_ ended).trans early

-- The holdoff is measured on the counter, and has passed in truth.
theorem Ends.apart (ends : l.Ends) (free : l.arrival.holdingOff l.nowMs = false) (at_ : Nat) (ended : .ended at_ ∈ l.acts) :
    at_ + l.arrival.holdoffMs.toNat ≤ l.now := by
  cases known : l.arrival.receptionEnded with
  | false => exact absurd ended (ends.none_ known at_)
  | true =>
      obtain ⟨last,early,stamped,latest⟩ := ends.last known
      have long : ¬l.nowMs - l.arrival.receptionEndMs < l.arrival.holdoffMs := by
        rw [RxArrival.holdingOff,known,Bool.true_and] at free
        exact of_decide_eq_false free
      rw [stamped,nowMs,UInt32.not_lt,UInt32.le_iff_toNat_le,stamp_sub _ _ early] at long
      have before := latest at_ ended
      have turns := Nat.mod_le (l.now - last) (2 ^ 32)
      omega

theorem apart_ended (a : RadioAct) (at_ : Nat) : Apart a (.ended at_) := by
  cases a with
  | ended before => exact trivial
  | scan before irq holdoffMs => exact trivial
  | transmit before tx cads retries phy taken => exact trivial

theorem apart_transmit (a : RadioAct) (at_ : Nat) (tx : TxMessage) (cads : List CadResult) (retries : UInt8) (phy taken : PhyConfig) :
    Apart a (.transmit at_ tx cads retries phy taken) := by
  cases a with
  | ended before => exact trivial
  | scan before irq holdoffMs => exact trivial
  | transmit before tx cads retries phy taken => exact trivial

theorem pairwise_snoc {acts : List RadioAct} (apart : acts.Pairwise Apart) (a : RadioAct) (last : ∀ before ∈ acts, Apart before a) :
    (acts ++ [a]).Pairwise Apart := by
  refine List.pairwise_append.mpr ⟨apart,List.pairwise_singleton _ _,?_⟩
  intro before earlier after later
  rw [List.mem_singleton.mp later]
  exact last before earlier

theorem proper_snoc {acts : List RadioAct} (proper : ∀ a ∈ acts, a.Proper limit) (a : RadioAct) (last : a.Proper limit) :
    ∀ b ∈ acts ++ [a], b.Proper limit := by
  intro b member
  rcases List.mem_append.mp member with earlier | later
  · exact proper b earlier
  · rw [List.mem_singleton.mp later]
    exact last

theorem ended_snoc {acts : List RadioAct} {a : RadioAct} (other : ∀ at_, a ≠ .ended at_) (at_ : Nat) (member : .ended at_ ∈ acts ++ [a]) :
    .ended at_ ∈ acts := by
  rcases List.mem_append.mp member with earlier | later
  · exact earlier
  · exact absurd (List.mem_singleton.mp later).symm (other at_)

theorem Kept.receptionEnded (kept : l.Kept limit) : l.receptionEnded.Kept limit := by
  refine ⟨kept.pending,kept.order,⟨kept.counted.sent,kept.counted.timedOut,kept.counted.refused,kept.counted.noRadio⟩,?_,
    proper_snoc kept.proper _ trivial,pairwise_snoc kept.apart _ fun a _ => apart_ended a _,⟨nofun,?_⟩,kept.settings,kept.tickets,
    kept.limited,kept.waiting⟩
  · refine (aired_snoc _ _).trans ?_
    rw [kept.once]
    exact List.append_nil _
  · intro _
    refine ⟨l.now,Nat.le_refl _,rfl,?_⟩
    intro at_ member
    rcases List.mem_append.mp member with earlier | later
    · exact kept.ends.before at_ earlier
    · cases List.mem_singleton.mp later
      exact Nat.le_refl _

theorem Kept.held (kept : l.Kept limit) (busy : l.access.state ≠ .idle) : l.haveTx = true := kept.pending.mpr busy

-- What a CAD's outcome leaves: the frame is ready and has earned the air, or waits again.
theorem Kept.reportCad (kept : l.Kept limit) (result : CadResult) (p : Pass) (waiting : l.access.state = .waiting) :
    ∃ next l', l.reportCad result p = (next,l') ∧ l'.Kept limit ∧ l'.mode = l.mode ∧ l'.haveTx = true ∧
      ((next = .transmit ∧ l'.access.state = .ready ∧ Earned limit l'.access.cfg.cadRetries l'.cads) ∨
        (next ≠ .transmit ∧ l'.access.state = .waiting)) := by
  have busy : l.access.state ≠ .idle := fun idle => AccessState.noConfusion (waiting.symm.trans idle)
  have held := kept.held busy
  obtain ⟨unfree,counted,bounded⟩ := kept.waiting waiting
  have short : l.cads.length ≤ limit.toNat := counted ▸ UInt8.le_iff_toNat_le.mp bounded
  have kept' : ∀ (access : MediaAccess) (cadBackoffs : UInt32) (stats : LoraStats), access.state ≠ .idle → access.cfg = l.access.cfg →
      stats = {l.stats with cadErrors := access.cadErrors} →
      (access.state = .waiting → (∀ c ∈ l.cads ++ [result], c ≠ .free) ∧ (l.cads ++ [result]).length = access.backoffs.toNat ∧ access.backoffs ≤ limit) →
      Kept limit {l with access := access,cadBackoffs := cadBackoffs,stats := stats,cads := l.cads ++ [result]} := by
    intro access cadBackoffs stats busy' cfg named waits
    subst named
    exact ⟨⟨fun _ => busy',fun _ => held⟩,kept.order,⟨kept.counted.sent,kept.counted.timedOut,kept.counted.refused,kept.counted.noRadio⟩,
      kept.once,kept.proper,kept.apart,⟨kept.ends.none_,kept.ends.last⟩,kept.settings,kept.tickets,
      by change access.cfg.cadRetries ≤ limit; rw [cfg]; exact kept.limited,waits⟩
  unfold LoraLink.reportCad
  rcases l.access.onCad_cases result l.nowMs p.random l.cadBackoffs busy with
    ⟨free,is⟩ | ⟨unfree',spent,is⟩ | ⟨unfree',more,cadErrors,waitMs,cadBackoffs,_,is⟩
  · rw [is]
    exact ⟨_,_,rfl,kept' _ _ _ nofun rfl rfl nofun,rfl,held,.inl ⟨rfl,rfl,l.cads,result,rfl,unfree,.inl free,short⟩⟩
  · rw [is]
    exact ⟨_,_,rfl,kept' _ _ _ nofun rfl rfl nofun,rfl,held,
      .inl ⟨rfl,rfl,l.cads,result,rfl,unfree,.inr (counted ▸ UInt8.le_iff_toNat_le.mp spent),short⟩⟩
  · rw [is]
    refine ⟨_,_,rfl,kept' _ _ _ nofun rfl rfl ?_,rfl,held,.inr ⟨nofun,rfl⟩⟩
    intro _
    have fits := UInt8.lt_iff_toNat_lt.mp more
    have within := UInt8.le_iff_toNat_le.mp kept.limited
    have top := limit.toNat_lt
    have moved : (l.access.backoffs + 1).toNat = l.access.backoffs.toNat + 1 := by
      rw [UInt8.toNat_add]
      exact Nat.mod_eq_of_lt (by change l.access.backoffs.toNat + 1 < _; omega)
    refine ⟨?_,?_,?_⟩
    · intro c member
      rcases List.mem_append.mp member with earlier | later
      · exact unfree c earlier
      · rw [List.mem_singleton.mp later]
        exact unfree'
    · rw [List.length_append,List.length_singleton,counted]
      exact moved.symm
    · rw [UInt8.le_iff_toNat_le]
      change (l.access.backoffs + 1).toNat ≤ _
      rw [moved]
      omega

-- A frame goes on the air.
theorem Kept.airs (kept : l.Kept limit) (txTimeoutMs : UInt32) (off : l.mode ≠ .transmit) (ready : l.access.state = .ready)
    (earned : Earned limit l.access.cfg.cadRetries l.cads) :
    Settled limit ({l with
      txTimeoutMs := txTimeoutMs
      acts := l.acts ++ [RadioAct.transmit l.now l.tx l.cads l.access.cfg.cadRetries l.phy l.taken]}.enterMode .transmit) := by
  have held : l.haveTx = true := kept.held fun idle => AccessState.noConfusion (ready.symm.trans idle)
  obtain ⟨deafMs,is⟩ := enterMode_is {l with
    txTimeoutMs := txTimeoutMs
    acts := l.acts ++ [RadioAct.transmit l.now l.tx l.cads l.access.cfg.cadRetries l.phy l.taken]} .transmit
  rw [is]
  refine ⟨⟨kept.pending,kept.order,⟨kept.counted.sent,kept.counted.timedOut,kept.counted.refused,kept.counted.noRadio⟩,?_,
    proper_snoc kept.proper _ ⟨(kept.settings held).symm,earned⟩,pairwise_snoc kept.apart _ fun a _ => apart_transmit a _ _ _ _ _ _,
    ⟨?_,?_⟩,kept.settings,kept.tickets,kept.limited,kept.waiting⟩,nofun,nofun,fun _ => ready,fun _ => rfl⟩
  · have before : l.onAir = [] := if_neg fun both => off both.1
    have after : onAir {l with
        mode := .transmit
        modeStartMs := l.nowMs} = [l.tx] := if_pos ⟨rfl,held⟩
    refine (aired_snoc _ _).trans ?_
    rw [kept.once,before,List.append_nil]
    exact congrArg _ after.symm
  · intro none_ at_ member
    exact kept.ends.none_ none_ at_ (ended_snoc (fun _ same => RadioAct.noConfusion same) at_ member)
  · intro known
    obtain ⟨last,early,stamped,latest⟩ := kept.ends.last known
    exact ⟨last,early,stamped,fun at_ member => latest at_ (ended_snoc (fun _ same => RadioAct.noConfusion same) at_ member)⟩

theorem Kept.startTransmit (kept : l.Kept limit) (p : Pass) (off : l.mode ≠ .transmit) (ready : l.access.state = .ready)
    (earned : Earned limit l.access.cfg.cadRetries l.cads) : (l.startTransmit p).Settled limit := by
  have counted : ∀ txForced, Alike l {l with stats := {l.stats with txForced := txForced}} := by
    intro txForced
    constructor <;> rfl
  have shape : ∃ l', Alike l l' ∧ l'.mode = l.mode ∧ l.startTransmit p =
      if p.transmitStatus ≠ 0 then ((l'.bumped .refused).endTx .refused).startReceive p.receiveStatus
      else {l' with
        txTimeoutMs := 5 + p.timeOnAirUs * 5 / 1000
        acts := l'.acts ++ [RadioAct.transmit l'.now l'.tx l'.cads l'.access.cfg.cadRetries l'.phy l'.taken]}.enterMode .transmit := by
    unfold LoraLink.startTransmit
    cases l.access.forced with
    | false => exact ⟨l,by constructor <;> rfl,rfl,rfl⟩
    | true => exact ⟨{l with stats := {l.stats with txForced := l.stats.txForced + 1}},counted _,rfl,rfl⟩
  obtain ⟨l',same,mode,is⟩ := shape
  have kept' := kept.alike same
  have off' : l'.mode ≠ .transmit := mode ▸ off
  have ready' : l'.access.state = .ready := same.access ▸ ready
  have held' : l'.haveTx = true := kept'.held fun idle => AccessState.noConfusion (ready'.symm.trans idle)
  rw [is]
  split
  · obtain ⟨ended,empty,_,idle⟩ := kept'.endTx .refused held' ⟨nofun,fun here => absurd here off'⟩
    exact ended.startReceive _ (fun have_ => absurd (empty.symm.trans have_) Bool.false_ne_true)
      fun stuck => AccessState.noConfusion (idle.symm.trans stuck)
  · refine kept'.airs _ off' ready' ?_
    rw [same.access,same.cads]
    exact earned

theorem Settled.unready (settled : l.Settled limit) (off : l.mode ≠ .transmit) : l.access.state ≠ .ready := fun ready => off (settled.ready ready)

theorem Kept.readPacket (kept : l.Kept limit) (p : Pass) :
    (l.readPacket p).Kept limit ∧ (l.readPacket p).mode = l.mode ∧ (l.readPacket p).access = l.access := by
  have reset : Alike l {l with arrival := l.arrival.reset} := by constructor <;> rfl
  have ended := (kept.alike reset).receptionEnded
  unfold LoraLink.readPacket
  cases p.reading with
  | frame => exact ⟨ended,rfl,rfl⟩
  | crcMismatch => exact ⟨ended,rfl,rfl⟩
  | driverError => exact ⟨ended.alike (by constructor <;> rfl),rfl,rfl⟩

theorem Settled.serviceReceive (settled : l.Settled limit) (p : Pass) (mode : l.mode = .receive) : (l.serviceReceive p).Settled limit := by
  have off : l.mode ≠ .transmit := fun on => RadioMode.noConfusion (mode.symm.trans on)
  have unready := settled.unready off
  unfold LoraLink.serviceReceive
  dsimp only
  split
  · exact settled
  · obtain ⟨ended,endMs,_⟩ := l.arrival.observe_ends p.irqRx.preamble p.irqRx.header l.nowMs
    have seen : Alike l {l with
        dio1 := false
        lastIrqReadMs := l.nowMs
        arrival := (l.arrival.observe p.irqRx.preamble p.irqRx.header l.nowMs).2} := by
      constructor <;> first | rfl | assumption
    have kept := settled.kept.alike seen
    split
    · exact kept.receptionEnded.startReceive _ (fun _ => off) unready
    · exact (kept.alike (by constructor <;> rfl)).settled mode unready
    · exact kept.settled mode unready
    · obtain ⟨read,stays,access⟩ := (kept.noted {l.stats with rxNoInterrupt := l.stats.rxNoInterrupt + 1} rfl rfl rfl).readPacket p
      exact read.settled (stays.trans mode) (by rw [access]; exact unready)
    · obtain ⟨read,stays,access⟩ := kept.readPacket p
      exact read.settled (stays.trans mode) (by rw [access]; exact unready)

-- A scan begins: the channel shows no frame, and the last one ended long enough ago.
theorem Kept.scans (kept : l.Kept limit) (irq : Irq) (off : l.mode ≠ .transmit) (waiting : l.access.state = .waiting)
    (clear : irq.rxDone = false ∧ irq.preamble = false ∧ irq.header = false)
    (apart : ∀ at_, .ended at_ ∈ l.acts → at_ + l.arrival.holdoffMs.toNat ≤ l.now) :
    Settled limit ({l with acts := l.acts ++ [RadioAct.scan l.now irq l.arrival.holdoffMs]}.enterMode .cad) := by
  obtain ⟨deafMs,is⟩ := enterMode_is {l with acts := l.acts ++ [RadioAct.scan l.now irq l.arrival.holdoffMs]} .cad
  have last : ∀ before ∈ l.acts, Apart before (.scan l.now irq l.arrival.holdoffMs) := by
    intro before earlier
    cases before with
    | ended at_ => exact apart at_ earlier
    | scan at_ irq holdoffMs => exact trivial
    | transmit at_ tx cads retries phy taken => exact trivial
  rw [is]
  refine ⟨⟨kept.pending,kept.order,⟨kept.counted.sent,kept.counted.timedOut,kept.counted.refused,kept.counted.noRadio⟩,?_,
    proper_snoc kept.proper _ clear,pairwise_snoc kept.apart _ last,⟨?_,?_⟩,kept.settings,kept.tickets,kept.limited,kept.waiting⟩,
    nofun,fun _ => waiting,nofun,fun ready => AccessState.noConfusion (waiting.symm.trans ready)⟩
  · have before : l.onAir = [] := if_neg fun both => off both.1
    refine (aired_snoc _ _).trans ?_
    rw [kept.once,before,List.append_nil]
    rfl
  · intro none_ at_ member
    exact kept.ends.none_ none_ at_ (ended_snoc (fun _ same => RadioAct.noConfusion same) at_ member)
  · intro known
    obtain ⟨last,early,stamped,latest⟩ := kept.ends.last known
    exact ⟨last,early,stamped,fun at_ member => latest at_ (ended_snoc (fun _ same => RadioAct.noConfusion same) at_ member)⟩

-- What follows a CAD's outcome, outside a transmission.
theorem Kept.finishCad (kept : l.Kept limit) (result : CadResult) (p : Pass) (off : l.mode ≠ .transmit) (waiting : l.access.state = .waiting) :
    (l.finishCad result p).Settled limit := by
  obtain ⟨next,l',is,kept',mode,_,outcome⟩ := kept.reportCad result p waiting
  have off' : l'.mode ≠ .transmit := mode ▸ off
  unfold LoraLink.finishCad
  rw [is]
  rcases outcome with ⟨rfl,ready,earned⟩ | ⟨waits,still⟩
  · exact kept'.startTransmit p off' ready earned
  · dsimp only
    rw [if_neg waits]
    exact kept'.startReceive _ (fun _ => off') fun ready => AccessState.noConfusion (still.symm.trans ready)

theorem Settled.startCad (settled : l.Settled limit) (p : Pass) (mode : l.mode = .receive) (waiting : l.access.state = .waiting) :
    (l.startCad p).Settled limit := by
  have off : l.mode ≠ .transmit := fun on => RadioMode.noConfusion (mode.symm.trans on)
  have unready := settled.unready off
  unfold LoraLink.startCad
  split
  · exact settled
  · rename_i free
    split
    · exact (settled.kept.alike (by constructor <;> rfl)).settled mode unready
    · rename_i undone
      obtain ⟨ended,endMs,holdoff⟩ := l.arrival.observe_ends p.irqTx.preamble p.irqTx.header l.nowMs
      have looked : Alike l {l with arrival := (l.arrival.observe p.irqTx.preamble p.irqTx.header l.nowMs).2} := by
        constructor <;> first | rfl | assumption
      have kept := settled.kept.alike looked
      have clear := l.arrival.observe_idle p.irqTx.preamble p.irqTx.header l.nowMs
      have long := settled.kept.ends.apart (by rw [← Bool.not_eq_true]; exact free)
      rw [← holdoff] at long
      dsimp only
      generalize l.arrival.observe p.irqTx.preamble p.irqTx.header l.nowMs = look at kept clear long
      obtain ⟨arrival,a⟩ := look
      cases arrival with
      | arriving =>
          have deferred : Alike {l with arrival := a} {{l with arrival := a} with stats := {l.stats with cadDeferred := l.stats.cadDeferred + 1}} := by
            constructor <;> rfl
          obtain ⟨next,l',is,kept',same,_,outcome⟩ := (kept.alike deferred).reportCad .busy p waiting
          dsimp only
          rw [is]
          rcases outcome with ⟨rfl,ready,earned⟩ | ⟨waits,still⟩
          · exact kept'.startTransmit p (same ▸ off) ready earned
          · dsimp only
            rw [if_neg waits]
            exact kept'.settled (same.trans mode) fun ready => AccessState.noConfusion (still.symm.trans ready)
      | stale => exact kept.startReceive _ (fun _ => off) unready
      | idle =>
          dsimp only
          split
          · exact kept.finishCad .error p off waiting
          · obtain ⟨preamble,header⟩ := clear rfl
            exact kept.scans p.irqTx off waiting ⟨by rw [← Bool.not_eq_true]; exact undone,preamble,header⟩ long

theorem Settled.serviceCad (settled : l.Settled limit) (p : Pass) (mode : l.mode = .cad) : (l.serviceCad p).Settled limit := by
  have off : l.mode ≠ .transmit := fun on => RadioMode.noConfusion (mode.symm.trans on)
  have waiting := settled.cad mode
  unfold LoraLink.serviceCad
  split
  · split
    · exact settled.kept.finishCad .busy p off waiting
    · exact (settled.kept.noted {l.stats with cadFree := l.stats.cadFree + 1} rfl rfl rfl).finishCad .free p off waiting
  · split
    · exact settled.kept.finishCad .error p off waiting
    · exact settled

-- A transmission ends, and the radio receives again.
theorem Settled.lands (settled : l.Settled limit) (how : Left) (status : Int16) (mode : l.mode = .transmit) (aired : how.onAir = true) :
    (((l.bumped how).endTx how).startReceive status).Settled limit := by
  have held := settled.kept.held fun idle => AccessState.noConfusion ((settled.transmit mode).symm.trans idle)
  obtain ⟨ended,empty,_,idle⟩ := settled.kept.endTx how held ⟨fun _ => mode,fun _ => aired⟩
  exact ended.startReceive status (fun have_ => absurd (empty.symm.trans have_) Bool.false_ne_true)
    fun ready => AccessState.noConfusion (idle.symm.trans ready)

theorem Settled.serviceTransmit (settled : l.Settled limit) (p : Pass) (mode : l.mode = .transmit) : (l.serviceTransmit p).Settled limit := by
  unfold LoraLink.serviceTransmit
  split
  · exact settled.lands .sent _ mode rfl
  · split
    · exact settled.lands .timedOut _ mode rfl
    · exact settled

theorem Settled.serveTx (settled : l.Settled limit) (p : Pass) (mode : l.mode = .receive) (held : l.haveTx = true) : (l.serveTx p).Settled limit := by
  have busy := settled.kept.pending.mp held
  have unready := settled.unready fun on => RadioMode.noConfusion (mode.symm.trans on)
  have waiting : l.access.state = .waiting := by
    cases state : l.access.state with
    | idle => exact absurd state busy
    | waiting => rfl
    | ready => exact absurd state unready
  have step : l.access.step l.nowMs = .cad ∨ l.access.step l.nowMs = .wait := by
    unfold MediaAccess.step
    rw [waiting]
    dsimp only
    split
    · exact .inl rfl
    · exact .inr rfl
  unfold LoraLink.serveTx
  rcases step with cad | wait
  · rw [cad]
    exact settled.startCad p mode waiting
  · rw [wait]
    exact settled

-- The next frame is taken from the queue.
theorem Settled.takes (settled : l.Settled limit) (tx : TxMessage) (rest : List TxMessage) (mode : l.mode = .receive) (empty : l.haveTx = false)
    (waits : l.queue = tx :: rest) :
    Settled limit {l with tx := tx,queue := rest,haveTx := true,access := l.access.start l.nowMs,cads := [],taken := l.phy} := by
  have kept := settled.kept
  have order := kept.order
  have once := kept.once
  rw [hand,empty,if_neg Bool.false_ne_true,waits] at order
  have before : l.onAir = [] := if_neg fun both => RadioMode.noConfusion (mode.symm.trans both.1)
  rw [before] at once
  refine Kept.settled ⟨⟨fun _ idle => AccessState.noConfusion idle,fun _ => rfl⟩,order,⟨kept.counted.sent,kept.counted.timedOut,kept.counted.refused,
    kept.counted.noRadio⟩,once.trans (congrArg _ (Eq.symm (if_neg fun both => RadioMode.noConfusion (mode.symm.trans both.1)))),kept.proper,kept.apart,
    ⟨kept.ends.none_,kept.ends.last⟩,fun _ => rfl,kept.tickets,kept.limited,fun _ => ⟨fun c inside => ?_,rfl,?_⟩⟩ mode
    fun ready => AccessState.noConfusion ready
  · cases inside
  · exact UInt8.le_iff_toNat_le.mpr (Nat.zero_le _)

theorem Settled.serviceTx (settled : l.Settled limit) (p : Pass) (mode : l.mode = .receive) : (l.serviceTx p).Settled limit := by
  unfold LoraLink.serviceTx
  cases held : l.haveTx with
  | true => exact settled.serveTx p mode held
  | false =>
      rw [if_neg Bool.false_ne_true]
      cases waits : l.queue with
      | nil => exact settled
      | cons tx rest =>
          exact (settled.takes tx rest mode held waits).serveTx p mode rfl

theorem Settled.serviceRetune (settled : l.Settled limit) (p : Pass) : (l.serviceRetune p).Settled limit := by
  have kept := settled.kept
  unfold LoraLink.serviceRetune
  split
  · exact settled
  · rename_i between
    have empty : l.haveTx = false := by
      rw [← Bool.not_eq_true]
      intro held
      rw [held,Bool.true_or,Bool.true_or] at between
      exact between rfl
    have moved : Kept limit {l with phy := l.phyNext} := ⟨kept.pending,kept.order,
      ⟨kept.counted.sent,kept.counted.timedOut,kept.counted.refused,kept.counted.noRadio⟩,kept.once,kept.proper,kept.apart,
      ⟨kept.ends.none_,kept.ends.last⟩,fun held => absurd (empty.symm.trans held) Bool.false_ne_true,kept.tickets,kept.limited,kept.waiting⟩
    split
    · exact settled
    · split
      · exact ⟨moved,settled.down,settled.cad,settled.transmit,settled.ready⟩
      · have began := moved.tryBegin p.retuneStatus empty
        have kept' := began.kept
        exact ⟨⟨kept'.pending,kept'.order,⟨kept'.counted.sent,kept'.counted.timedOut,kept'.counted.refused,kept'.counted.noRadio⟩,kept'.once,
          kept'.proper,kept'.apart,⟨kept'.ends.none_,kept'.ends.last⟩,kept'.settings,kept'.tickets,kept'.limited,kept'.waiting⟩,began.down,began.cad,began.transmit,began.ready⟩

theorem Kept.drain (kept : Kept limit {l with queue := txs}) (mode : l.mode = .down) (empty : l.haveTx = false) :
    (l.drain txs).Kept limit ∧ (l.drain txs).mode = .down ∧ (l.drain txs).haveTx = false := by
  induction txs generalizing l with
  | nil => exact ⟨kept,mode,empty⟩
  | cons tx rest ih =>
      unfold LoraLink.drain
      rw [noteTxDone_is]
      have order := kept.order
      have once := kept.once
      have counted := kept.counted.bumped .noRadio tx
      have none_ : onAir {l with queue := tx :: rest} = [] := if_neg fun both => RadioMode.noConfusion (mode.symm.trans both.1)
      change l.asked = l.gone.map Prod.fst ++ ((if l.haveTx then [l.tx] else []) ++ (tx :: rest)) at order
      rw [empty,if_neg Bool.false_ne_true,List.nil_append] at order
      rw [none_,List.append_nil] at once
      refine ih ⟨kept.pending,?_,⟨counted.1,counted.2.1,counted.2.2.1,counted.2.2.2⟩,?_,kept.proper,kept.apart,⟨kept.ends.none_,kept.ends.last⟩,
        kept.settings,?_,kept.limited,kept.waiting⟩ mode empty
      · change l.asked = (l.gone ++ [(tx,Left.noRadio)]).map Prod.fst ++ ((if l.haveTx then [tx] else []) ++ rest)
        rw [empty,if_neg Bool.false_ne_true,order,List.map_append,List.append_assoc]
        rfl
      · change aired l.acts = ((l.gone ++ [(tx,Left.noRadio)]).filter fun g => g.2.onAir).map Prod.fst ++ (if l.mode = .transmit ∧ l.haveTx = true then [tx] else [])
        rw [if_neg fun both => RadioMode.noConfusion (mode.symm.trans both.1),List.filter_append,List.append_nil]
        exact once.trans (congrArg (List.map Prod.fst) (List.append_nil _).symm)
      · change (if tx.ticket = 0 then l.txDoneTicket else tx.ticket) = lastTicket (l.gone ++ [(tx,Left.noRadio)])
        rw [lastTicket_snoc]
        exact congrArg (fun t => if tx.ticket = 0 then t else tx.ticket) kept.tickets

theorem Settled.service (settled : l.Settled limit) (p : Pass) : (l.service p).Settled limit := by
  have retuned := settled.serviceRetune p
  unfold LoraLink.service
  generalize l.serviceRetune p = l' at retuned
  dsimp only
  cases mode : l'.mode with
  | down =>
      obtain ⟨kept,still,empty⟩ := @Kept.drain limit l' l'.queue retuned.kept mode (retuned.down mode)
      dsimp only
      split
      · exact kept.tryBegin _ empty
      · exact kept.down still empty
  | receive =>
      have received := retuned.serviceReceive p mode
      dsimp only
      split
      · rename_i receiving
        exact received.serviceTx p receiving
      · exact received
  | cad => exact retuned.serviceCad p mode
  | transmit => exact retuned.serviceTransmit p mode

-- The retries configured are within a limit.
def Capped (limit : UInt8) : LoraInput → Prop
  | .configure cfg => cfg.cadRetries ≤ limit
  | _ => True

theorem Kept.waited (kept : l.Kept limit) (ms : Nat) : Kept limit {l with now := l.now + ms} := by
  refine ⟨kept.pending,kept.order,⟨kept.counted.sent,kept.counted.timedOut,kept.counted.refused,kept.counted.noRadio⟩,kept.once,kept.proper,kept.apart,
    ⟨kept.ends.none_,?_⟩,kept.settings,kept.tickets,kept.limited,kept.waiting⟩
  intro known
  obtain ⟨last,early,stamped,latest⟩ := kept.ends.last known
  exact ⟨last,early.trans (Nat.le_add_right _ _),stamped,latest⟩

theorem Kept.queued (kept : l.Kept limit) (tx : TxMessage) : Kept limit {l with queue := l.queue ++ [tx],asked := l.asked ++ [tx]} := by
  refine ⟨kept.pending,?_,⟨kept.counted.sent,kept.counted.timedOut,kept.counted.refused,kept.counted.noRadio⟩,kept.once,kept.proper,kept.apart,
    ⟨kept.ends.none_,kept.ends.last⟩,kept.settings,kept.tickets,kept.limited,kept.waiting⟩
  change l.asked ++ [tx] = l.gone.map Prod.fst ++ (l.hand ++ (l.queue ++ [tx]))
  rw [kept.order,List.append_assoc,List.append_assoc]

theorem Kept.configured (kept : l.Kept limit) (cfg : MediaAccessConfig) (within : cfg.cadRetries ≤ limit) :
    Kept limit {l with access := {l.access with cfg := cfg}} :=
  ⟨kept.pending,kept.order,⟨kept.counted.sent,kept.counted.timedOut,kept.counted.refused,kept.counted.noRadio⟩,kept.once,kept.proper,kept.apart,
    ⟨kept.ends.none_,kept.ends.last⟩,kept.settings,kept.tickets,within,kept.waiting⟩

theorem Settled.step (settled : l.Settled limit) (i : LoraInput) (capped : Capped limit i) : (l.step i).Settled limit := by
  obtain ⟨kept,down,cad,transmit,ready⟩ := settled
  cases i with
  | wait ms => exact ⟨kept.waited ms,down,cad,transmit,ready⟩
  | edge => exact ⟨kept.alike (by constructor <;> rfl),down,cad,transmit,ready⟩
  | queue tx => exact ⟨kept.queued tx,down,cad,transmit,ready⟩
  | requestPhy phy => exact ⟨kept.alike (by constructor <;> rfl),down,cad,transmit,ready⟩
  | configure cfg => exact ⟨kept.configured cfg capped,down,cad,transmit,ready⟩
  | pass p => exact Settled.service ⟨kept,down,cad,transmit,ready⟩ p

theorem started (phy : PhyConfig) (status : Int16) (start : Nat) (roomy : (5 : UInt8) ≤ limit) : (loraStart phy status start).Settled limit := by
  refine Kept.tryBegin ⟨⟨fun held => absurd held Bool.false_ne_true,fun busy => absurd rfl busy⟩,rfl,⟨rfl,rfl,rfl,rfl⟩,rfl,fun a inside => ?_,.nil,
    ⟨fun _ at_ inside => ?_,fun known => absurd known Bool.false_ne_true⟩,fun held => absurd held Bool.false_ne_true,rfl,roomy,
    fun waits => AccessState.noConfusion waits⟩ status rfl
  · cases inside
  · cases inside

-- The settings in force, the ones asked for, and the tickets of the two.
def settings (l : LoraLink) : PhyConfig × PhyConfig × UInt32 × UInt32 := (l.phy,l.phyNext,l.phyRequested,l.phyApplied)

@[simp]
theorem settings_enterMode (l : LoraLink) (next : RadioMode) : (l.enterMode next).settings = l.settings := rfl

@[simp]
theorem settings_noteTxDone (l : LoraLink) : l.noteTxDone.settings = l.settings := by
  rw [noteTxDone_is]
  rfl

@[simp]
theorem settings_endTx (l : LoraLink) (how : Left) : (l.endTx how).settings = l.settings := settings_noteTxDone _

@[simp]
theorem settings_radioFailed (l : LoraLink) (status : Int16) : (l.radioFailed status).settings = l.settings := by
  rw [radioFailed_is]
  split
  · exact settings_endTx ((l.fallen status).bumped .noRadio) .noRadio
  · rfl

@[simp]
theorem settings_tryBegin (l : LoraLink) (status : Int16) : (l.tryBegin status).settings = l.settings := by
  unfold LoraLink.tryBegin
  split
  · exact settings_radioFailed l status
  · rfl

@[simp]
theorem settings_startReceive (l : LoraLink) (status : Int16) : (l.startReceive status).settings = l.settings := by
  unfold LoraLink.startReceive
  dsimp only
  split
  · exact settings_radioFailed _ status
  · rfl

@[simp]
theorem settings_readPacket (l : LoraLink) (p : Pass) : (l.readPacket p).settings = l.settings := by
  unfold LoraLink.readPacket
  cases p.reading with
  | frame => rfl
  | crcMismatch => rfl
  | driverError => rfl

theorem settings_serviceReceive (l : LoraLink) (p : Pass) : (l.serviceReceive p).settings = l.settings := by
  unfold LoraLink.serviceReceive
  dsimp only
  split
  · rfl
  · split
    · exact settings_startReceive _ _
    · rfl
    · rfl
    · exact settings_readPacket _ _
    · exact settings_readPacket _ _

@[simp]
theorem settings_startTransmit (l : LoraLink) (p : Pass) : (l.startTransmit p).settings = l.settings := by
  unfold LoraLink.startTransmit
  cases l.access.forced with
  | false =>
      dsimp only
      split
      · exact (settings_startReceive _ _).trans (settings_endTx _ _)
      · rfl
  | true =>
      dsimp only
      split
      · exact (settings_startReceive _ _).trans (settings_endTx _ _)
      · rfl

theorem settings_finishCad (l : LoraLink) (result : CadResult) (p : Pass) : (l.finishCad result p).settings = l.settings := by
  unfold LoraLink.finishCad
  dsimp only
  split
  · exact settings_startTransmit _ p
  · exact settings_startReceive _ _

theorem settings_startCad (l : LoraLink) (p : Pass) : (l.startCad p).settings = l.settings := by
  unfold LoraLink.startCad
  split
  · rfl
  · split
    · rfl
    · dsimp only
      split
      · split
        · exact settings_startTransmit _ p
        · rfl
      · exact settings_startReceive _ _
      · split
        · split
          · exact settings_startTransmit _ p
          · exact settings_startReceive _ _
        · rfl

theorem settings_serviceTx (l : LoraLink) (p : Pass) : (l.serviceTx p).settings = l.settings := by
  have serves : ∀ l : LoraLink, (l.serveTx p).settings = l.settings := by
    intro l
    unfold LoraLink.serveTx
    split
    · exact settings_noteTxDone _
    · rfl
    · exact settings_startCad l p
    · exact settings_startTransmit l p
  unfold LoraLink.serviceTx
  split
  · exact serves l
  · split
    · rfl
    · exact serves _

theorem settings_drain (l : LoraLink) (txs : List TxMessage) : (l.drain txs).settings = l.settings := by
  induction txs generalizing l with
  | nil => rfl
  | cons tx rest ih => exact (ih _).trans (settings_noteTxDone _)

-- Only between frames do the settings move in a pass.
theorem settings_service (l : LoraLink) (p : Pass) : (l.service p).settings = (l.serviceRetune p).settings := by
  unfold LoraLink.service
  generalize l.serviceRetune p = l'
  dsimp only
  split
  · split
    · exact (settings_tryBegin _ _).trans (settings_drain l' _)
    · exact settings_drain l' _
  · split
    · exact (settings_serviceTx _ p).trans (settings_serviceReceive l' p)
    · exact settings_serviceReceive l' p
  · unfold LoraLink.serviceCad
    split
    · split
      · exact settings_finishCad _ _ p
      · exact settings_finishCad _ _ p
    · split
      · exact settings_finishCad _ _ p
      · rfl
  · unfold LoraLink.serviceTransmit
    split
    · exact (settings_startReceive _ _).trans (settings_endTx _ _)
    · split
      · exact (settings_startReceive _ _).trans (settings_endTx _ _)
      · rfl

-- The newest request, told as applied, is in force.
def InForce (s : PhyConfig × PhyConfig × UInt32 × UInt32) : Prop := s.2.2.2 = s.2.2.1 → s.2.2.1 = 0 ∨ s.1 = s.2.1

-- A request before whose ticket the counter has not come round to the one last applied.
def Fresh (l : LoraLink) : LoraInput → Prop
  | .requestPhy phy => (l.requestPhy phy).phyRequested ≠ l.phyApplied
  | _ => True

theorem inForce_retune (l : LoraLink) (p : Pass) (before : InForce l.settings) : InForce (l.serviceRetune p).settings := by
  unfold LoraLink.serviceRetune
  split
  · exact before
  · split
    · exact before
    · split
      · exact fun _ => .inr rfl
      · have kept := settings_tryBegin {l with phy := l.phyNext} p.retuneStatus
        rw [settings,settings,Prod.mk.injEq,Prod.mk.injEq] at kept
        exact fun _ => .inr (kept.1.trans kept.2.1.symm)

theorem inForce_step (l : LoraLink) (i : LoraInput) (before : InForce l.settings) (fresh : l.Fresh i) : InForce (l.step i).settings := by
  cases i with
  | wait ms => exact before
  | edge => exact before
  | queue tx => exact before
  | requestPhy phy => exact fun same => absurd same.symm fresh
  | configure cfg => exact before
  | pass p =>
      change InForce (l.service p).settings
      rw [settings_service]
      exact inForce_retune l p before

end
end LoraLink

section
open LoraLink
variable {limit : UInt8} {phy : PhyConfig} {status : Int16} {start : Nat} {l : LoraLink}

theorem reached_settled (roomy : (5 : UInt8) ≤ limit) (path : Reached LoraLink.step (fun _ => Capped limit) (loraStart phy status start) l) :
    l.Settled limit :=
  path.invariant (Settled limit) (started phy status start roomy) fun _ i settled capped => settled.step i capped

-- Any run at all keeps within the highest limit there is.
theorem reached_kept (path : Reached LoraLink.step (fun _ _ => True) (loraStart phy status start) l) : l.Kept 255 := by
  refine (reached_settled (by decide) (path.weaken fun _ i _ => ?_)).kept
  cases i with
  | configure cfg => exact UInt8.le_iff_toNat_le.mpr (Nat.le_of_lt_succ cfg.cadRetries.toNat_lt)
  | wait ms => exact trivial
  | edge => exact trivial
  | queue tx => exact trivial
  | requestPhy phy => exact trivial
  | pass p => exact trivial

-- Every frame asked for has left, is in hand or waits, in the order asked; it has been on the air once if it left so and not at all otherwise;
-- and the four counters count how they left.
theorem frames_leave_in_order (path : Reached LoraLink.step (fun _ _ => True) (loraStart phy status start) l) :
    l.asked = l.gone.map Prod.fst ++ (l.hand ++ l.queue) ∧
    aired l.acts = (l.gone.filter fun g => g.2.onAir).map Prod.fst ++ l.onAir ∧ l.Counted := by
  have kept := reached_kept path
  exact ⟨kept.order,kept.once,kept.counted⟩

-- Nothing is sent that its CADs have not earned, under any settings but those it was taken under; no scan begins where the chip shows a frame,
-- nor within the holdoff behind a reception.
theorem transmissions_earned (roomy : (5 : UInt8) ≤ limit) (path : Reached LoraLink.step (fun _ => Capped limit) (loraStart phy status start) l) :
    (∀ a ∈ l.acts, a.Proper limit) ∧ l.acts.Pairwise Apart := by
  have kept := (reached_settled roomy path).kept
  exact ⟨kept.proper,kept.apart⟩

-- The last request told as applied is in force.
theorem applied_settings_in_force (path : Reached LoraLink.step Fresh (loraStart phy status start) l)
    (applied : l.phyIsApplied l.phyRequested = true) : l.phyRequested = 0 ∨ l.phy = l.phyNext := by
  have begins : InForce (loraStart phy status start).settings := by
    unfold loraStart
    rw [settings_tryBegin]
    exact fun _ => .inl rfl
  have inForce : InForce l.settings := path.invariant (fun l => InForce l.settings) begins inForce_step
  exact inForce (eq_of_beq applied)

def ticketAfter (first : UInt32) (txs : List TxMessage) : UInt32 := txs.foldl (fun t tx => if tx.ticket = 0 then t else tx.ticket) first

theorem lastTicket_after (gone : List (TxMessage × Left)) : lastTicket gone = ticketAfter 0 (gone.map Prod.fst) := by
  unfold lastTicket ticketAfter
  rw [List.foldl_map]

theorem ticketAfter_from (first : UInt32) (txs : List TxMessage) :
    ticketAfter first txs = first ∨ ∃ tx ∈ txs, tx.ticket ≠ 0 ∧ ticketAfter first txs = tx.ticket := by
  induction txs generalizing first with
  | nil => exact .inl rfl
  | cons tx rest ih =>
      by_cases none_ : tx.ticket = 0
      · have same : ticketAfter first (tx :: rest) = ticketAfter first rest := by
          unfold ticketAfter
          rw [List.foldl_cons,if_pos none_]
        rw [same]
        rcases ih first with kept | ⟨later,inside,has,is⟩
        · exact .inl kept
        · exact .inr ⟨later,List.mem_cons_of_mem _ inside,has,is⟩
      · have same : ticketAfter first (tx :: rest) = ticketAfter tx.ticket rest := by
          unfold ticketAfter
          rw [List.foldl_cons,if_neg none_]
        rw [same]
        rcases ih tx.ticket with kept | ⟨later,inside,has,is⟩
        · exact .inr ⟨tx,List.mem_cons_self,none_,kept⟩
        · exact .inr ⟨later,List.mem_cons_of_mem _ inside,has,is⟩

theorem txFinished_iff (l : LoraLink) (ticket : UInt32) :
    (l.txFinished ticket).isSome = true ↔ l.txDoneTicket ≠ 0 ∧ ¬(l.txDoneTicket - ticket).toInt32 < 0 := by
  unfold txFinished
  split
  · rename_i early
    exact ⟨nofun,fun late => (early.elim late.1 late.2).elim⟩
  · rename_i late
    exact ⟨fun _ => not_or.mp late,fun _ => rfl⟩

-- A ticket is told as finished exactly when its frame has left, whatever has been queued before and behind it, as long as tickets go up the
-- half circle.
theorem tickets_tell_departures (path : Reached LoraLink.step (fun _ _ => True) (loraStart phy status start) l)
    (before after : List TxMessage) (tx : TxMessage) (asked : l.asked = before ++ tx :: after) (has : tx.ticket ≠ 0)
    (earlier : ∀ e ∈ before, e.ticket ≠ 0 → (e.ticket - tx.ticket).toInt32 < 0)
    (later : ∀ e ∈ after, e.ticket ≠ 0 → ¬(e.ticket - tx.ticket).toInt32 < 0) :
    (l.txFinished tx.ticket).isSome = true ↔ before.length < l.gone.length := by
  have kept := reached_kept path
  have told : l.txDoneTicket = ticketAfter 0 (l.gone.map Prod.fst) := kept.tickets.trans (lastTicket_after l.gone)
  have order := asked.symm.trans kept.order
  have length : (l.gone.map Prod.fst).length = l.gone.length := List.length_map _
  rw [txFinished_iff,told]
  generalize l.gone.map Prod.fst = left at order length
  rw [← length]
  rcases List.append_eq_append_iff.mp order with ⟨mid,is,rest⟩ | ⟨mid,is,rest⟩
  · cases mid with
    | nil =>
        rw [List.append_nil] at is
        rw [is]
        refine ⟨fun late => ?_,fun long => absurd long (Nat.lt_irrefl _)⟩
        rcases ticketAfter_from 0 before with none_ | ⟨e,inside,some_,is⟩
        · exact absurd none_ late.1
        · rw [is] at late
          exact absurd (earlier e inside some_) late.2
    | cons first mid =>
        obtain ⟨same,behind⟩ := List.cons_eq_cons.mp rest
        subst same
        rw [is]
        refine ⟨fun _ => by simp,fun _ => ?_⟩
        have split_ : ticketAfter 0 (before ++ tx :: mid) = ticketAfter tx.ticket mid := by
          unfold ticketAfter
          rw [List.foldl_append,List.foldl_cons,if_neg has]
        rw [split_]
        rcases ticketAfter_from tx.ticket mid with own | ⟨e,inside,some_,is⟩
        · rw [own,UInt32.sub_self]
          exact ⟨has,by decide⟩
        · rw [is]
          exact ⟨some_,later e (by rw [behind]; exact List.mem_append_left _ inside) some_⟩
  · refine ⟨fun late => ?_,fun long => ?_⟩
    · rcases ticketAfter_from 0 left with none_ | ⟨e,inside,some_,here⟩
      · exact absurd none_ late.1
      · rw [here] at late
        exact absurd (earlier e (is ▸ List.mem_append_left _ inside) some_) late.2
    · rw [is,List.length_append] at long
      omega

end

-- A frame is received, and four are queued behind it. The first finds the channel busy once and is sent, the driver refuses the second, the
-- third is sent, and the last still waits; the tickets pass nought.
def ticketed (ticket : UInt32) : TxMessage := {bytes := [0x4C],dst := 1,ticket := ticket}

def exchanging : List LoraInput :=
  [.edge,.pass {irqRx := {rxDone := true}},.queue (ticketed 0xFFFFFFFF),.queue (ticketed 0),.queue (ticketed 1),.queue (ticketed 2),.pass {},
    .wait 200,.pass {},.wait 30,.pass {irqTx := {cadDone := true,cadDetected := true},random := 700},.wait 700,.pass {},.wait 30,
    .pass {irqTx := {cadDone := true},timeOnAirUs := 90000},.wait 100,.pass {irqTx := {txDone := true}},.pass {},.wait 30,
    .pass {irqTx := {cadDone := true},transmitStatus := -1},.pass {},.wait 30,.pass {irqTx := {cadDone := true},timeOnAirUs := 90000},.wait 100,
    .pass {irqTx := {txDone := true}}]

def exchanged : LoraLink := exchanging.foldl LoraLink.step (loraStart kPhy 0 0)

theorem exchanged_capped : Reached LoraLink.step (fun _ => LoraLink.Capped 5) (loraStart kPhy 0 0) exchanged := by
  refine Follows.reached ?_
  unfold exchanging
  repeat refine ⟨trivial,?_⟩
  exact trivial

theorem exchanged_reached : Reached LoraLink.step (fun _ _ => True) (loraStart kPhy 0 0) exchanged := exchanged_capped.weaken fun _ _ _ => trivial

def actedAt : RadioAct → Nat
  | .ended at_ | .scan at_ _ _ | .transmit at_ _ _ _ _ _ => at_

theorem exchanged_is : exchanged.gone = [(ticketed 0xFFFFFFFF,.sent),(ticketed 0,.refused),(ticketed 1,.sent)] ∧
    exchanged.asked = [ticketed 0xFFFFFFFF,ticketed 0,ticketed 1,ticketed 2] ∧ exchanged.onAir = [] ∧
    exchanged.acts.map actedAt = [0,200,930,960,1060,1090,1120] := by decide +kernel

theorem frames_leave_in_order_refused : exchanged.queue = [ticketed 2] ∧ LoraLink.aired exchanged.acts = [ticketed 0xFFFFFFFF,ticketed 1] ∧
    exchanged.txFrames = 2 ∧ exchanged.stats.txErrors = 1 := by
  obtain ⟨order,once,counted⟩ := frames_leave_in_order exchanged_reached
  obtain ⟨gone,asked,quiet,_⟩ := exchanged_is
  have sent := counted.sent
  have refused := counted.refused
  rw [gone] at order once sent refused
  rw [asked] at order
  rw [quiet] at once
  have idle : exchanged.hand = [] := by rfl
  rw [idle] at order
  have waits : [ticketed 0xFFFFFFFF,ticketed 0,ticketed 1] ++ [ticketed 2] =
      [ticketed 0xFFFFFFFF,ticketed 0,ticketed 1] ++ exchanged.queue := order
  exact ⟨(List.append_cancel_left waits).symm,once,sent,refused⟩

theorem transmissions_earned_backoff : exchanged.acts.map actedAt = [0,200,930,960,1060,1090,1120] ∧ (∀ a ∈ exchanged.acts, a.Proper 5) ∧
    exchanged.acts.Pairwise Apart :=
  ⟨exchanged_is.2.2.2,transmissions_earned (by decide) exchanged_capped⟩

theorem tickets_tell_departures_wrapped : (exchanged.txFinished 1).isSome = true ∧ (exchanged.txFinished 2).isSome = false := by
  obtain ⟨gone,asked,_⟩ := exchanged_is
  have third := tickets_tell_departures exchanged_reached [ticketed 0xFFFFFFFF,ticketed 0] [ticketed 2] (ticketed 1) asked (by decide)
    (by decide) (by decide)
  have last := tickets_tell_departures exchanged_reached [ticketed 0xFFFFFFFF,ticketed 0,ticketed 1] [] (ticketed 2) asked (by decide)
    (by decide) (by decide)
  rw [gone] at third last
  refine ⟨third.mpr (by decide),?_⟩
  rw [← Bool.not_eq_true]
  exact fun told => absurd (last.mp told) (by decide)

def retuning : List LoraInput := [.requestPhy {kPhy with sf := 10},.pass {}]

theorem applied_settings_in_force_retuned : (retuning.foldl LoraLink.step (loraStart kPhy 0 0)).phy = {kPhy with sf := 10} := by
  have states : ((loraStart kPhy 0 0).requestPhy {kPhy with sf := 10}).phyRequested ≠ (loraStart kPhy 0 0).phyApplied ∧
      (retuning.foldl LoraLink.step (loraStart kPhy 0 0)).phyRequested = 1 ∧
      (retuning.foldl LoraLink.step (loraStart kPhy 0 0)).phyNext = {kPhy with sf := 10} ∧
      (retuning.foldl LoraLink.step (loraStart kPhy 0 0)).phyIsApplied 1 = true := by decide +kernel
  obtain ⟨fresh,asked,next,told⟩ := states
  have run : Follows LoraLink.step LoraLink.Fresh (loraStart kPhy 0 0) retuning := ⟨fresh,trivial,trivial⟩
  rcases applied_settings_in_force run.reached (by rw [asked]; exact told) with none_ | inForce
  · rw [asked] at none_
    cases none_
  · exact inForce.trans next

end LoraRan.Bridge
