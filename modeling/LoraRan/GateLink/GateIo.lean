import Mathlib.Tactic.ByContra
import LoraRan.Library.Clock
import LoraRan.Protocol.Messages

namespace LoraRan.GateLink
open Library.Clock Protocol

def relayCount : UInt8 := 4

inductive PulseResult where
  | started | badRelay | badWidth | busy | tooSoon
  deriving DecidableEq, Repr

structure RelayPulser where
  active : Bool := false
  ended : Bool := false
  relay : UInt8 := 0
  endMs : UInt32 := 0
  deriving DecidableEq

def RelayPulser.mask (p : RelayPulser) : UInt8 := if p.active then 1 <<< p.relay else 0

def RelayPulser.start (p : RelayPulser) (relay : UInt8) (widthMs spacingMs nowMs : UInt32) : PulseResult × RelayPulser :=
  if relayCount ≤ relay then (.badRelay,p)
  else if widthMs = 0 then (.badWidth,p)
  else if p.active then (.busy,p)
  else if p.ended ∧ !reached nowMs (p.endMs + spacingMs) then (.tooSoon,p)
  else (.started,{p with active := true,relay := relay,endMs := nowMs + widthMs})

def RelayPulser.update (p : RelayPulser) (nowMs : UInt32) : Bool × RelayPulser :=
  if !p.active ∨ !reached nowMs p.endMs then (false,p)
  else (true,{p with active := false,ended := true})

def noRelay : UInt8 := 0xFF

structure RelaySequence where
  first : UInt8 := noRelay
  second : UInt8 := noRelay
  deriving DecidableEq

inductive SequenceEnd where
  | done | refused
  deriving DecidableEq, Repr

inductive SequencerState where
  | idle | waiting | pulsing
  deriving DecidableEq, Repr

structure CommandSequencer where
  state : SequencerState := .idle
  relays : RelaySequence := {}
  step : UInt8 := 0
  notBeforeMs : UInt32 := 0
  ended : Bool := false
  how : SequenceEnd := .done
  deriving DecidableEq

def CommandSequencer.running (q : CommandSequencer) : Bool := q.state != .idle

def CommandSequencer.begin (q : CommandSequencer) (seq : RelaySequence) (nowMs : UInt32) : Bool × CommandSequencer :=
  if q.state ≠ .idle then (false,q)
  else (true,{q with relays := seq,step := 0,notBeforeMs := nowMs,ended := false,state := .waiting})

def CommandSequencer.relayAt (q : CommandSequencer) : UInt8 := if q.step = 0 then q.relays.first else q.relays.second

def CommandSequencer.finish (q : CommandSequencer) (how : SequenceEnd) : CommandSequencer :=
  {q with state := .idle,ended := true,how := how}

-- The second half of `service`: a waiting step asks the pulser for its relay.
def CommandSequencer.tryStart (q : CommandSequencer) (p : RelayPulser) (widthMs spacingMs nowMs : UInt32) :
    Bool × CommandSequencer × RelayPulser :=
  if q.state ≠ .waiting ∨ !reached nowMs q.notBeforeMs then (false,q,p)
  else match p.start q.relayAt widthMs spacingMs nowMs with
    | (.started,p) => (true,{q with state := .pulsing},p)
    | (.busy,p) | (.tooSoon,p) => (false,q,p)
    | (.badRelay,p) | (.badWidth,p) => (false,q.finish .refused,p)

def CommandSequencer.service (q : CommandSequencer) (p : RelayPulser) (widthMs spacingMs settleMs nowMs : UInt32) :
    Bool × CommandSequencer × RelayPulser :=
  if q.state = .pulsing then
    if p.mask ≠ 0 then (false,q,p)
    else if q.step = 1 ∨ q.relays.second = noRelay then (false,q.finish .done,p)
    else CommandSequencer.tryStart {q with step := 1,notBeforeMs := nowMs + settleMs,state := .waiting} p widthMs spacingMs nowMs
  else q.tryStart p widthMs spacingMs nowMs

def CommandSequencer.takeEnd (q : CommandSequencer) : Option SequenceEnd × CommandSequencer :=
  if !q.ended then (none,q) else (some q.how,{q with ended := false})

def k1OpenLock : UInt8 := 0
def k2Unlock : UInt8 := 1
def k3Open : UInt8 := 2
def k4CloseNow : UInt8 := 3

def relaySequenceFor (cmd : Command) : Option RelaySequence :=
  if cmd.cmd = cmdOpen then some {first := k3Open}
  else if cmd.cmd = cmdHoldOpen then some {first := k1OpenLock}
  else if cmd.cmd = cmdReleaseHold then some {first := k2Unlock}
  else if cmd.cmd = cmdClose then
    if cmd.arg = 0 then some {first := k2Unlock}
    else if cmd.arg = 1 then some {first := k2Unlock,second := k4CloseNow}
    else none
  else none

-- The relays a sequence is to pulse, in order.
def RelaySequence.expected (seq : RelaySequence) : List UInt8 :=
  if seq.second = noRelay then [seq.first] else [seq.first,seq.second]

-- Both slots name a relay the board has, the second possibly none.
structure RelaySequence.Fit (seq : RelaySequence) : Prop where
  first : seq.first < relayCount
  second : seq.second = noRelay ∨ seq.second < relayCount

theorem relaySequenceFor_fit (cmd : Command) (seq : RelaySequence) (given : relaySequenceFor cmd = some seq) : seq.Fit := by
  unfold relaySequenceFor at given
  split at given; · cases given; exact ⟨by decide,.inl rfl⟩
  split at given; · cases given; exact ⟨by decide,.inl rfl⟩
  split at given; · cases given; exact ⟨by decide,.inl rfl⟩
  split at given
  · split at given; · cases given; exact ⟨by decide,.inl rfl⟩
    split at given; · cases given; exact ⟨by decide,.inr (by decide)⟩
    cases given
  · cases given

-- The masks one expander write may carry: nothing, or one of K1-K4.
def OneRelay (mask : UInt8) : Prop := mask = 0 ∨ ∃ relay < relayCount, mask = 1 <<< relay

theorem mask_idle (p : RelayPulser) (idle : p.active = false) : p.mask = 0 := by
  simp [RelayPulser.mask,idle]

theorem mask_active (p : RelayPulser) (active : p.active = true) (small : p.relay < relayCount) : p.mask ≠ 0 := by
  have cases : p.relay = 0 ∨ p.relay = 1 ∨ p.relay = 2 ∨ p.relay = 3 := by
    rw [UInt8.lt_iff_toNat_lt] at small
    simp only [← UInt8.toNat_inj]
    change p.relay.toNat < 4 at small
    change p.relay.toNat = 0 ∨ p.relay.toNat = 1 ∨ p.relay.toNat = 2 ∨ p.relay.toNat = 3
    omega
  simp only [RelayPulser.mask,active,if_true]
  rcases cases with equal | equal | equal | equal <;> rw [equal] <;> decide

theorem mask_one (p : RelayPulser) (small : p.relay < relayCount) : OneRelay p.mask := by
  cases active : p.active with
  | false => exact .inl (mask_idle p active)
  | true => exact .inr ⟨p.relay,small,by simp [RelayPulser.mask,active]⟩

theorem start_parts (p next : RelayPulser) (relay : UInt8) (width spacing now : UInt32) (result : PulseResult)
    (ran : p.start relay width spacing now = (result,next)) :
    (result = .started ∧ relay < relayCount ∧ p.active = false ∧
      next = {p with active := true,relay := relay,endMs := now + width}) ∨
    (result ≠ .started ∧ next = p ∧ (relay < relayCount → width ≠ 0 → result = .busy ∨ result = .tooSoon)) := by
  unfold RelayPulser.start at ran
  split at ran
  · rename_i large
    cases ran
    exact .inr ⟨by decide,rfl,fun small => absurd large (UInt8.not_le.mpr small)⟩
  · rename_i small
    split at ran
    · rename_i zero
      cases ran
      exact .inr ⟨by decide,rfl,fun _ nonzero => absurd zero nonzero⟩
    · split at ran
      · cases ran; exact .inr ⟨by decide,rfl,fun _ _ => .inl rfl⟩
      · rename_i free
        split at ran
        · cases ran; exact .inr ⟨by decide,rfl,fun _ _ => .inr rfl⟩
        · cases ran
          exact .inl ⟨rfl,UInt8.not_le.mp small,by simpa using free,rfl⟩

theorem tryStart_parts (q q' : CommandSequencer) (p p' : RelayPulser) (width spacing now : UInt32) (fired : Bool)
    (ran : q.tryStart p width spacing now = (fired,q',p')) :
    (fired = true ∧ q.state = .waiting ∧ reached now q.notBeforeMs = true ∧ q.relayAt < relayCount ∧ p.active = false ∧
      q' = {q with state := .pulsing} ∧ p' = {p with active := true,relay := q.relayAt,endMs := now + width}) ∨
    (fired = false ∧ p' = p ∧ (q' = q ∨ q' = q.finish .refused ∧ q.state = .waiting ∧ (q.relayAt < relayCount → width = 0))) := by
  unfold CommandSequencer.tryStart at ran
  split at ran
  · cases ran; exact .inr ⟨rfl,rfl,.inl rfl⟩
  · rename_i ready
    have waiting : q.state = .waiting := by
      by_contra other; exact ready (.inl other)
    have due : reached now q.notBeforeMs = true := by
      cases hit : reached now q.notBeforeMs with
      | true => rfl
      | false => exact absurd (.inr (by simp [hit])) ready
    split at ran <;> cases ran <;> rename_i started
    · rcases start_parts _ _ _ _ _ _ _ started with ⟨_,small,free,equal⟩ | ⟨other,_⟩
      · exact .inl ⟨rfl,waiting,due,small,free,rfl,equal⟩
      · exact absurd rfl other
    all_goals
      rcases start_parts _ _ _ _ _ _ _ started with ⟨other,_⟩ | ⟨_,same,refused⟩
      · cases other
      · refine .inr ⟨rfl,same,?_⟩
        first
          | exact .inl rfl
          | refine .inr ⟨rfl,waiting,fun small => ?_⟩
            by_contra nonzero
            rcases refused small nonzero with impossible | impossible <;> cases impossible

end LoraRan.GateLink
