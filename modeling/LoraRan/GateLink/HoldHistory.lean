import LoraRan.GateLink.HoldSteps
import LoraRan.Library.Clock
import LoraRan.Library.Occurrence
import Mathlib.Data.List.Induction

namespace LoraRan.GateLink
open Library.Clock Library.Occurrence

-- The tracker's calls at unbounded times.
inductive GateCall where
  | pulse (relay : UInt8) (time : Nat)
  | update (inputs : UInt8) (time : Nat) (p : GateParams)

namespace GateCall

def time : GateCall → Nat
  | .pulse _ time => time
  | .update _ time _ => time

def params : GateCall → Option GateParams
  | .pulse _ _ => none
  | .update _ _ p => some p

def inputs : GateCall → Option UInt8
  | .pulse _ _ => none
  | .update inputs _ _ => some inputs

end GateCall

def GateTracker.call (t : GateTracker) : GateCall → GateTracker
  | .pulse relay time => t.notePulse relay (stamp time)
  | .update inputs time p => (t.update inputs (stamp time) p).1

def gateAfter (calls : List GateCall) : GateTracker := calls.foldl GateTracker.call {}

theorem gateAfter_snoc (calls : List GateCall) (c : GateCall) : gateAfter (calls ++ [c]) = (gateAfter calls).call c := by
  unfold gateAfter
  rw [List.foldl_append]
  rfl

-- What the calls so far tell by themselves.

def lastInputs (calls : List GateCall) : Option UInt8 := calls.foldl (fun last c => c.inputs.or last) none

def shownBy (calls : List GateCall) : GateState := ((lastInputs calls).map GateTracker.observe).getD .unknown

-- The time of the last update, or of the first call before any.
def markStep (mark : Option Nat) : GateCall → Option Nat
  | .pulse _ time => some (mark.getD time)
  | .update _ time _ => some time

def mark (calls : List GateCall) : Option Nat := calls.foldl markStep none

-- Since when the updates have read OPEN without MOVING and ALARM.
def heldStep (since : Option Nat) : GateCall → Option Nat
  | .pulse _ _ => since
  | .update inputs time _ => if GateTracker.observe inputs = .openHeld then some (since.getD time) else none

def heldSince (calls : List GateCall) : Option Nat := calls.foldl heldStep none

theorem lastInputs_snoc (calls : List GateCall) (c : GateCall) : lastInputs (calls ++ [c]) = c.inputs.or (lastInputs calls) := by
  unfold lastInputs
  rw [List.foldl_append]
  rfl

theorem mark_snoc (calls : List GateCall) (c : GateCall) : mark (calls ++ [c]) = markStep (mark calls) c := by
  unfold mark
  rw [List.foldl_append]
  rfl

theorem heldSince_snoc (calls : List GateCall) (c : GateCall) : heldSince (calls ++ [c]) = heldStep (heldSince calls) c := by
  unfold heldSince
  rw [List.foldl_append]
  rfl

-- Times do not go back, no update comes half a turn of the counter after the update before it (or the first call), and no
-- parameter is longer than that.
structure PacedCall (pre : List GateCall) (c : GateCall) : Prop where
  onward : ∀ x ∈ pre, x.time ≤ c.time
  near : c.params ≠ none → ∀ m, mark pre = some m → c.time < m + 2147483648
  short : ∀ p, c.params = some p → p.holdConfirmMs.toNat ≤ 2147483648 ∧ p.causeWindowMs.toNat ≤ 2147483648

def PacedCalls : List GateCall → Prop := Always PacedCall

-- OPEN without MOVING and ALARM.
def ReadsHeld (inputs : UInt8) : Prop := inputs &&& inOpen ≠ 0 ∧ inputs &&& inMoving = 0 ∧ inputs &&& inAlarm = 0

def HeldRead (c : GateCall) : Prop := ∀ inputs, c.inputs = some inputs → ReadsHeld inputs

-- The updates from one of them on have all read so.
def HeldFrom (calls : List GateCall) (first : GateCall) : Prop :=
  ∃ pre rest, calls = pre ++ first :: rest ∧ first.inputs ≠ none ∧ ∀ c ∈ first :: rest, HeldRead c

-- The events of a claim's life.

def ClosesGate (pre : List GateCall) (c : GateCall) : Prop := (gateAfter pre).state ≠ .closed ∧ (gateAfter (pre ++ [c])).state = .closed

def HoldTurns (pre : List GateCall) (c : GateCall) : Prop := (gateAfter (pre ++ [c])).held ≠ (gateAfter pre).held

def Releases (c : GateCall) : Prop := ∃ time, c = .pulse relayUnlock time

def Ends (pre : List GateCall) (c : GateCall) : Prop := Releases c ∨ ClosesGate pre c ∨ HoldTurns pre c

def Shows (pre : List GateCall) (c : GateCall) : Prop := shownBy (pre ++ [c]) ≠ shownBy pre

-- An update past the window of a pulse finds that nothing has changed since.
def Lapses (base : List GateCall) (since : Nat) (mid : List GateCall) (c : GateCall) : Prop :=
  (∃ p, c.params = some p ∧ since + p.causeWindowMs.toNat < c.time) ∧ ¬Occurs (fun pre c => Shows (base ++ pre) c) (mid ++ [c])

-- A K1 pulse was noted that nothing has ended, and that has not lapsed by an update after `calls`.
def LranPulse (calls : List GateCall) (u : GateCall) : Prop :=
  ∃ before time post, calls = before ++ [.pulse relayOpenLock time] ++ post ∧
    ¬Occurs (fun pre c => Ends (before ++ [.pulse relayOpenLock time] ++ pre) c) post ∧
    ¬Occurs (Lapses (before ++ [.pulse relayOpenLock time]) time) (post ++ [u])

def FireRises (pre : List GateCall) (c : GateCall) : Prop :=
  ∃ inputs last, c.inputs = some inputs ∧ lastInputs pre = some last ∧ inputs &&& inFire ≠ 0 ∧ last &&& inFire = 0

-- FIRE rose and the state has not become Closed since.
def FireSince (calls : List GateCall) : Prop :=
  ∃ before c post, calls = before ++ c :: post ∧ FireRises before c ∧ ¬Occurs (fun pre c => ClosesGate (before ++ pre) c) (c :: post)

theorem observe_held (inputs : UInt8) : GateTracker.observe inputs = .openHeld ↔ ReadsHeld inputs := by
  unfold GateTracker.observe ReadsHeld
  by_cases alarm : inputs &&& inAlarm = 0
  · by_cases open_ : inputs &&& inOpen = 0
    · by_cases moving : inputs &&& inMoving = 0
      · simp [alarm,open_,moving]
      · simp [alarm,open_,moving]
    · by_cases moving : inputs &&& inMoving = 0
      · simp [alarm,open_,moving]
      · simp [alarm,open_,moving]
  · simp [alarm]

-- What the tracker keeps of a claim, by the pulse it comes from and the calls since.
structure Claimed (calls : List GateCall) (t : GateTracker) (base : List GateCall) (since : Nat) (post : List GateCall) : Prop where
  whole : calls = base ++ post
  pulse : ∃ before, base = before ++ [.pulse relayOpenLock since]
  stamped : t.lranClaimMs = stamp since
  kept : ¬Occurs (fun pre c => Ends (base ++ pre) c) post
  live : ¬Occurs (Lapses base since) post
  shows : t.lranClaimMoved = true → Occurs (fun pre c => Shows (base ++ pre) c) post
  near : t.lranClaimMoved = false → ∀ m, mark calls = some m → m ≤ since + 2147483648

-- What the tracker keeps of the calls so far.
structure Tracked (calls : List GateCall) (t : GateTracker) : Prop where
  held : t.held = (t.state == .openHeld)
  source : t.source = .none ↔ t.held = false
  observed : t.observed = shownBy calls
  levels : (if t.primed then some t.prevInputs else none) = lastInputs calls
  candidate : t.holdCandidate = (heldSince calls).isSome
  since : ∀ s, heldSince calls = some s → t.holdSinceMs = stamp s ∧
    ∃ m, mark calls = some m ∧ s ≤ m ∧ (∃ c ∈ calls, c.time = m) ∧ (t.state ≠ .openHeld → m < s + 2147483648)
  claim : t.lranClaim = true → ∃ base since post, Claimed calls t base since post
  fire : t.fireClaim = true → FireSince calls

theorem mark_some (calls : List GateCall) (some_ : calls ≠ []) : ∃ m, mark calls = some m := by
  rcases List.eq_nil_or_concat calls with none_ | ⟨init,last,rfl⟩
  · exact absurd none_ some_
  · rw [List.concat_eq_append,mark_snoc]
    cases last with
    | pulse _ time => exact ⟨_,rfl⟩
    | update _ time _ => exact ⟨_,rfl⟩

-- The mark is the time of a call.
theorem mark_called (calls : List GateCall) (m : Nat) (marked : mark calls = some m) : ∃ c ∈ calls, c.time = m := by
  induction calls using List.reverseRecOn generalizing m with
  | nil => cases marked
  | append_singleton calls c ih =>
      rw [mark_snoc] at marked
      cases c with
      | update _ time _ => exact ⟨_,List.mem_append_right _ (List.mem_singleton_self _),Option.some.inj marked⟩
      | pulse _ time =>
          cases earlier : mark calls with
          | none =>
              rw [earlier] at marked
              exact ⟨_,List.mem_append_right _ (List.mem_singleton_self _),Option.some.inj marked⟩
          | some n =>
              rw [earlier] at marked
              obtain ⟨call,present,at_⟩ := ih n earlier
              exact ⟨call,List.mem_append_left _ present,at_.trans (Option.some.inj marked)⟩

section
variable {calls : List GateCall} {t : GateTracker} {inputs : UInt8} {time : Nat} {p : GateParams}

-- The counter shows a span shorter than its turn as it is.
theorem shown_span {since time : Nat} (later : since ≤ time) (near : time < since + 4294967296) :
    (stamp time - stamp since).toNat = time - since := by
  rw [stamp_sub since time later]
  omega

theorem shows_now (tracked : Tracked calls t) (seen : GateTracker.observe inputs ≠ t.observed) : Shows calls (.update inputs time p) := by
  unfold Shows
  rw [← tracked.observed]
  unfold shownBy
  rw [lastInputs_snoc]
  exact seen

-- A claim that stands at an update has not lapsed there.
theorem stands_claimed (tracked : Tracked calls t) (paced : PacedCall calls (.update inputs time p))
    (stands : t.lranStands inputs (stamp time) p = true) : ∃ base since post, Claimed calls t base since post ∧
      ¬Occurs (Lapses base since) (post ++ [.update inputs time p]) ∧
      (t.moved (GateTracker.observe inputs) = true → Occurs (fun pre c => Shows (base ++ pre) c) (post ++ [.update inputs time p])) ∧
      (t.moved (GateTracker.observe inputs) = false → time ≤ since + 2147483648) := by
  unfold GateTracker.lranStands at stands
  obtain ⟨stands,_⟩ := Bool.and_eq_true_iff.mp stands
  obtain ⟨claim,alive⟩ := Bool.and_eq_true_iff.mp stands
  obtain ⟨base,since,post,claimed⟩ := tracked.claim claim
  obtain ⟨whole,⟨before,pulse⟩,stamped,_,live,shows,near⟩ := id claimed
  have changes : t.moved (GateTracker.observe inputs) = true → Occurs (fun pre c => Shows (base ++ pre) c) (post ++ [.update inputs time p]) := by
    intro moved
    unfold GateTracker.moved at moved
    rcases Bool.or_eq_true_iff.mp moved with already | now
    · exact (shows already).later post _
    · refine (occurs_snoc post _).mpr (.inr ?_)
      rw [← whole]
      exact shows_now tracked (of_decide_eq_true (Bool.and_eq_true_iff.mp now).1)
  have window : t.moved (GateTracker.observe inputs) = false → time ≤ since + p.causeWindowMs.toNat := by
    intro still
    rw [still,Bool.false_or] at alive
    unfold GateTracker.within at alive
    have shown := UInt32.le_iff_toNat_le.mp (of_decide_eq_true alive)
    have unmoved : t.lranClaimMoved = false := by
      unfold GateTracker.moved at still
      exact (Bool.or_eq_false_iff.mp still).1
    have noted : GateCall.pulse relayOpenLock since ∈ calls := by
      rw [whole,pulse]
      exact List.mem_append_left _ (List.mem_append_right _ (List.mem_singleton_self _))
    have later : since ≤ time := paced.onward _ noted
    obtain ⟨m,marked⟩ := mark_some calls (List.ne_nil_of_mem noted)
    have recent := near unmoved m marked
    have soon : time < m + 2147483648 := paced.near (by intro none_; cases none_) m marked
    rw [stamped,shown_span later (by omega)] at shown
    omega
  refine ⟨base,since,post,claimed,?_,changes,?_⟩
  · rw [occurs_snoc]
    rintro (earlier | now)
    · exact live earlier
    · obtain ⟨⟨q,own,past⟩,silent⟩ := now
      cases own
      cases moved : t.moved (GateTracker.observe inputs) with
      | true => exact silent (changes moved)
      | false => exact absurd (window moved) (Nat.not_le.mpr past)
  · intro still
    have short := (paced.short p rfl).2
    have inside := window still
    omega

-- The span the inputs have shown a hold, as the counter shows it.
theorem held_span (tracked : Tracked calls t) (paced : PacedCall calls (.update inputs time p)) (open_ : t.state ≠ .openHeld) :
    (stamp time - t.since (stamp time)).toNat = time - (heldSince calls).getD time := by
  have candidate := tracked.candidate
  unfold GateTracker.since
  cases known : heldSince calls with
  | none =>
      rw [known] at candidate
      rw [candidate,if_neg (by decide)]
      exact (shown_span (Nat.le_refl time) (by omega)).trans rfl
  | some s =>
      rw [known] at candidate
      obtain ⟨stamped,m,marked,old,⟨c,present,at_⟩,short⟩ := tracked.since s known
      have later := paced.onward c present
      have soon := paced.near (by intro none_; cases none_) m marked
      have recent := short open_
      rw [candidate,if_pos (by rfl),stamped]
      change c.time ≤ time at later
      change time < m + 2147483648 at soon
      exact shown_span (by omega) (by omega)

theorem since_known (tracked : Tracked calls t) : t.since (stamp time) = stamp ((heldSince calls).getD time) := by
  have candidate := tracked.candidate
  unfold GateTracker.since
  cases known : heldSince calls with
  | none =>
      rw [known] at candidate
      rw [candidate]
      rfl
  | some s =>
      rw [known] at candidate
      rw [candidate]
      exact (tracked.since s known).1

theorem since_early (tracked : Tracked calls t) (paced : PacedCall calls (.update inputs time p)) : (heldSince calls).getD time ≤ time := by
  cases known : heldSince calls with
  | none => exact Nat.le_refl time
  | some s =>
      obtain ⟨_,m,_,old,⟨c,present,at_⟩,_⟩ := tracked.since s known
      have later : c.time ≤ time := paced.onward c present
      change s ≤ time
      omega

theorem fire_bit : ∀ b : BitVec 8, b &&& 16#8 = 0#8 ∨ ~~~b &&& 16#8 = 0#8 := by decide

theorem fire_rises (tracked : Tracked calls t) (rises : t.fireRises inputs = true) : FireRises calls (.update inputs time p) := by
  have levels := tracked.levels
  unfold GateTracker.fireRises at rises
  obtain ⟨primed,edge⟩ := Bool.and_eq_true_iff.mp rises
  rw [if_pos primed] at levels
  have bit := bne_iff_ne.mp edge
  refine ⟨inputs,t.prevInputs,rfl,levels.symm,?_,?_⟩
  · intro low
    rw [UInt8.and_assoc,UInt8.and_comm (~~~t.prevInputs),← UInt8.and_assoc,low,UInt8.zero_and] at bit
    exact bit rfl
  · rcases fire_bit t.prevInputs.toBitVec with low | high
    · exact UInt8.eq_of_toBitVec_eq low
    · have high_ : ~~~t.prevInputs &&& inFire = 0 := UInt8.eq_of_toBitVec_eq high
      rw [UInt8.and_assoc,high_,UInt8.and_zero] at bit
      exact absurd rfl bit

theorem FireSince.later {c : GateCall} (since : FireSince calls) (stays : ¬ClosesGate calls c) : FireSince (calls ++ [c]) := by
  obtain ⟨before,rise,post,rfl,rises,kept⟩ := since
  refine ⟨before,rise,post ++ [c],by rw [List.append_assoc,List.cons_append],rises,?_⟩
  rw [← List.cons_append,occurs_snoc]
  rintro (earlier | now)
  · exact kept earlier
  · exact stays now

-- A hold that is confirmed has been read over the whole span, and one that has been read over it is confirmed.
theorem derived_held (tracked : Tracked calls t) (paced : PacedCall calls (.update inputs time p)) (open_ : t.state ≠ .openHeld) :
    t.derived inputs (stamp time) p = .openHeld ↔
      GateTracker.observe inputs = .openHeld ∧ (heldSince calls).getD time + p.holdConfirmMs.toNat ≤ time := by
  have span := held_span tracked paced open_
  have early := since_early tracked paced
  unfold GateTracker.derived
  by_cases seen : GateTracker.observe inputs = .openHeld
  · by_cases short : stamp time - t.since (stamp time) < p.holdConfirmMs
    · rw [if_pos ⟨seen,short⟩]
      have shown := UInt32.lt_iff_toNat_lt.mp short
      constructor
      · intro held
        exact absurd held open_
      · rintro ⟨_,whole⟩
        omega
    · rw [if_neg fun both => short both.2]
      have shown : ¬(stamp time - t.since (stamp time)).toNat < p.holdConfirmMs.toNat := fun less => short (UInt32.lt_iff_toNat_lt.mpr less)
      constructor
      · intro _
        refine ⟨seen,?_⟩
        omega
      · intro _
        exact seen
  · rw [if_neg fun both => seen both.1]
    exact ⟨fun held => absurd held seen,fun both => both.1⟩

end

theorem named_source (boot lran fire : Prop) [Decidable boot] [Decidable lran] [Decidable fire] :
    (if boot then HoldSource.unknown else if lran then .lran else if fire then .keypadFire else .manual) ≠ .none := by
  split
  · decide
  · split
    · decide
    · split
      · decide
      · decide

-- What one call preserves.

theorem tracked_update {calls : List GateCall} {inputs : UInt8} {time : Nat} {p : GateParams} (tracked : Tracked calls (gateAfter calls))
    (paced : PacedCall calls (.update inputs time p)) :
    Tracked (calls ++ [.update inputs time p]) (gateAfter (calls ++ [.update inputs time p])) := by
  have after := gateAfter_snoc calls (.update inputs time p)
  have updated := (gateAfter calls).update_updated inputs (stamp time) p
  change gateAfter (calls ++ [.update inputs time p]) = ((gateAfter calls).update inputs (stamp time) p).1 at after
  rw [← after] at updated
  obtain ⟨state,held,_,⟨prev,primed,observed⟩,candidate,holdSince,⟨moved,stamped⟩,lranClaim,fireClaim,source⟩ := updated
  have marked : mark (calls ++ [.update inputs time p]) = some time := mark_snoc calls _
  have since : heldSince (calls ++ [.update inputs time p]) =
      if GateTracker.observe inputs = .openHeld then some ((heldSince calls).getD time) else none := heldSince_snoc calls _
  refine ⟨held,?_,?_,?_,?_,?_,?_,?_⟩
  · rw [source]
    by_cases same : (gateAfter (calls ++ [.update inputs time p])).held = (gateAfter calls).held
    · rw [if_pos same,same]
      exact tracked.source
    · rw [if_neg same]
      cases (gateAfter (calls ++ [.update inputs time p])).held with
      | false => simp
      | true =>
          rw [if_pos rfl]
          exact ⟨fun none_ => absurd none_ (named_source _ _ _),fun off => Bool.noConfusion off⟩
  · rw [observed]
    unfold shownBy
    rw [lastInputs_snoc]
    rfl
  · rw [primed,prev,lastInputs_snoc]
    rfl
  · rw [candidate,since]
    by_cases seen : GateTracker.observe inputs = .openHeld
    · rw [if_pos seen,decide_eq_true seen]
      rfl
    · rw [if_neg seen,decide_eq_false seen]
      rfl
  · intro s known
    rw [since] at known
    by_cases seen : GateTracker.observe inputs = .openHeld
    · rw [if_pos seen] at known
      have own : (heldSince calls).getD time = s := Option.some.inj known
      have early : s ≤ time := by
        rw [← own]
        exact since_early tracked paced
      refine ⟨?_,time,marked,early,⟨_,List.mem_append_right _ (List.mem_singleton_self _),rfl⟩,?_⟩
      · rw [holdSince,if_pos seen,since_known tracked,own]
      · intro open_
        rw [state] at open_
        have unconfirmed : (gateAfter calls).state ≠ .openHeld := by
          intro already
          apply open_
          unfold GateTracker.derived
          split
          · exact already
          · exact seen
        have short := (paced.short p rfl).1
        have span : ¬s + p.holdConfirmMs.toNat ≤ time := fun whole =>
          open_ ((derived_held tracked paced unconfirmed).mpr ⟨seen,by rw [own]; exact whole⟩)
        omega
    · rw [if_neg seen] at known
      cases known
  · intro claim
    rw [lranClaim] at claim
    obtain ⟨stands,unturned⟩ := Bool.and_eq_true_iff.mp claim
    obtain ⟨base,from_,post,claimed,live,shows,near⟩ := stands_claimed tracked paced stands
    refine ⟨base,from_,post ++ [.update inputs time p],?_⟩
    obtain ⟨whole,pulse,own,kept,_,_,_⟩ := claimed
    refine ⟨?_,pulse,stamped.trans own,?_,live,?_,?_⟩
    · rw [whole,List.append_assoc]
    · rw [occurs_snoc,← whole]
      rintro (earlier | ⟨_,released⟩ | ⟨open_,closed⟩ | turned)
      · exact kept earlier
      · cases released
      · rw [state] at closed
        unfold GateTracker.lranStands at stands
        rw [closed,beq_self_eq_true,Bool.true_and,bne_iff_ne.mpr open_] at stands
        exact absurd (Bool.and_eq_true_iff.mp stands).2 (by decide)
      · exact turned (eq_of_beq unturned)
    · rw [moved]
      exact shows
    · rw [moved]
      intro still m known
      rw [marked] at known
      rw [← Option.some.inj known]
      exact near still
  · intro fire
    rw [fireClaim] at fire
    unfold GateTracker.fireStands at fire
    obtain ⟨risen,unclosed⟩ := Bool.and_eq_true_iff.mp fire
    have stays : ¬ClosesGate calls (.update inputs time p) := by
      rintro ⟨open_,closed⟩
      rw [state] at closed
      rw [closed,beq_self_eq_true,Bool.true_and,bne_iff_ne.mpr open_] at unclosed
      exact absurd unclosed (by decide)
    rcases Bool.or_eq_true_iff.mp risen with already | now
    · exact (tracked.fire already).later stays
    · refine ⟨calls,_,[],rfl,?_,?_⟩
      · exact fire_rises tracked now
      · rw [occurs_one,List.append_nil]
        exact stays

theorem tracked_pulse {calls : List GateCall} {relay : UInt8} {time : Nat} (tracked : Tracked calls (gateAfter calls))
    (paced : PacedCall calls (.pulse relay time)) : Tracked (calls ++ [.pulse relay time]) (gateAfter (calls ++ [.pulse relay time])) := by
  have after : gateAfter (calls ++ [.pulse relay time]) = (gateAfter calls).notePulse relay (stamp time) := gateAfter_snoc calls _
  have pulsed := (gateAfter calls).notePulse_pulsed (stamp time) relay
  have claims := (gateAfter calls).notePulse_claim (stamp time) relay
  rw [← after] at pulsed claims
  obtain ⟨⟨state,held,source⟩,⟨prev,primed,observed⟩,⟨candidate,holdSince⟩,fireClaim⟩ := pulsed
  have inputs : lastInputs (calls ++ [.pulse relay time]) = lastInputs calls := lastInputs_snoc calls _
  have since : heldSince (calls ++ [.pulse relay time]) = heldSince calls := heldSince_snoc calls _
  have marked : ∀ m, mark calls = some m → mark (calls ++ [.pulse relay time]) = some m := by
    intro m known
    rw [mark_snoc,known]
    rfl
  have stays : ¬ClosesGate calls (.pulse relay time) := by
    rintro ⟨open_,closed⟩
    exact open_ (state.symm.trans closed)
  refine ⟨?_,?_,?_,?_,?_,?_,?_,?_⟩
  · rw [held,state]
    exact tracked.held
  · rw [source,held]
    exact tracked.source
  · unfold shownBy
    rw [observed,inputs]
    exact tracked.observed
  · rw [primed,prev,inputs]
    exact tracked.levels
  · rw [candidate,since]
    exact tracked.candidate
  · intro s known
    rw [since] at known
    obtain ⟨stamped,m,at_,old,⟨c,present,own⟩,short⟩ := tracked.since s known
    rw [holdSince,state]
    exact ⟨stamped,m,marked m at_,old,⟨c,List.mem_append_left _ present,own⟩,short⟩
  · intro claim
    by_cases lock : relay = relayOpenLock
    · rw [if_pos lock] at claims
      obtain ⟨_,unmoved,stamped⟩ : _ ∧ _ ∧ _ := by simpa only [Prod.mk.injEq] using claims
      refine ⟨calls ++ [.pulse relay time],time,[],(List.append_nil _).symm,⟨calls,by rw [lock]⟩,stamped,occurs_nil,occurs_nil,?_,?_⟩
      · intro moved
        exact absurd (unmoved.symm.trans moved) (by decide)
      · intro _ m known
        rw [mark_snoc] at known
        cases earlier : mark calls with
        | none =>
            rw [earlier] at known
            have own : time = m := Option.some.inj known
            omega
        | some n =>
            rw [earlier] at known
            have own : n = m := Option.some.inj known
            obtain ⟨c,present,at_⟩ := mark_called calls n earlier
            have later : c.time ≤ time := paced.onward c present
            omega
    · rw [if_neg lock] at claims
      obtain ⟨kept,moved,stamped⟩ : _ ∧ _ ∧ _ := by simpa only [Prod.mk.injEq] using claims
      rw [kept] at claim
      obtain ⟨stood,other⟩ := Bool.and_eq_true_iff.mp claim
      obtain ⟨base,from_,post,claimed⟩ := tracked.claim stood
      obtain ⟨whole,pulse,own,unended,live,shows,near⟩ := claimed
      refine ⟨base,from_,post ++ [.pulse relay time],?_,pulse,stamped.trans own,?_,?_,?_,?_⟩
      · rw [whole,List.append_assoc]
      · rw [occurs_snoc,← whole]
        rintro (earlier | ⟨_,released⟩ | closes | turned)
        · exact unended earlier
        · cases released
          exact absurd other (by decide)
        · exact stays closes
        · exact turned held
      · rw [occurs_snoc]
        rintro (earlier | ⟨⟨q,none_,_⟩,_⟩)
        · exact live earlier
        · cases none_
      · rw [moved]
        intro shown
        exact (shows shown).later post _
      · rw [moved]
        intro still m known
        obtain ⟨before,is⟩ := pulse
        have some_ : calls ≠ [] := by
          rw [whole,is]
          simp
        obtain ⟨n,at_⟩ := mark_some calls some_
        rw [marked n at_] at known
        rw [← Option.some.inj known]
        exact near still n at_
  · rw [fireClaim]
    intro fire
    exact (tracked.fire fire).later stays

theorem run_tracked (calls : List GateCall) (paced : PacedCalls calls) : Tracked calls (gateAfter calls) := by
  induction calls using List.reverseRecOn with
  | nil =>
      refine ⟨rfl,by decide,rfl,rfl,rfl,?_,?_,?_⟩
      · intro s known
        cases known
      · intro claim
        cases claim
      · intro fire
        cases fire
  | append_singleton calls c ih =>
      obtain ⟨prior,now⟩ := (always_snoc calls c).mp paced
      cases c with
      | pulse relay time => exact tracked_pulse (ih prior) now
      | update inputs time p => exact tracked_update (ih prior) now

-- The stretch of held reads the tracker times is the longest there is.

theorem held_since_from (calls : List GateCall) (s : Nat) (known : heldSince calls = some s) :
    ∃ first, HeldFrom calls first ∧ first.time = s := by
  induction calls using List.reverseRecOn generalizing s with
  | nil => cases known
  | append_singleton calls c ih =>
      rw [heldSince_snoc] at known
      have extended : ∀ first, HeldFrom calls first → HeldRead c → HeldFrom (calls ++ [c]) first := by
        rintro first ⟨pre,rest,rfl,updates,reads⟩ now
        refine ⟨pre,rest ++ [c],by rw [List.append_assoc,List.cons_append],updates,?_⟩
        intro x present
        rw [← List.cons_append] at present
        rcases List.mem_append.mp present with old | new
        · exact reads x old
        · rw [List.mem_singleton.mp new]
          exact now
      cases c with
      | pulse relay time =>
          obtain ⟨first,from_,at_⟩ := ih s known
          exact ⟨first,extended first from_ (by intro i own; cases own),at_⟩
      | update inputs time p =>
          unfold heldStep at known
          dsimp only at known
          split at known
          · rename_i seen
            have reads : HeldRead (.update inputs time p) := by
              intro i own
              cases own
              exact (observe_held _).mp seen
            cases earlier : heldSince calls with
            | none =>
                rw [earlier] at known
                refine ⟨_,⟨calls,[],rfl,(by intro none_; cases none_),?_⟩,Option.some.inj known⟩
                intro x present
                rw [List.mem_singleton.mp present]
                exact reads
            | some old =>
                rw [earlier] at known
                obtain ⟨first,from_,at_⟩ := ih old earlier
                exact ⟨first,extended first from_ reads,at_.trans (Option.some.inj known)⟩
          · cases known

theorem held_from_since (calls : List GateCall) (first : GateCall) (paced : PacedCalls calls) (from_ : HeldFrom calls first) :
    ∃ s, heldSince calls = some s ∧ s ≤ first.time := by
  induction calls using List.reverseRecOn with
  | nil =>
      obtain ⟨pre,rest,split_,_⟩ := from_
      exact absurd split_.symm (List.append_ne_nil_of_right_ne_nil pre (List.cons_ne_nil first rest))
  | append_singleton calls c ih =>
      obtain ⟨prior,now⟩ := (always_snoc calls c).mp paced
      obtain ⟨pre,rest,split_,updates,reads⟩ := from_
      rw [heldSince_snoc]
      rcases List.eq_nil_or_concat rest with rfl | ⟨init,last,rfl⟩
      · obtain ⟨rfl,one⟩ := List.append_inj' split_ rfl
        rw [List.singleton_inj.mp one] at now ⊢
        cases first with
        | pulse relay time => exact absurd rfl updates
        | update inputs time p =>
            have seen := (observe_held inputs).mpr (reads _ (List.mem_singleton_self _) inputs rfl)
            unfold heldStep
            dsimp only
            rw [if_pos seen]
            exact ⟨_,rfl,since_early (run_tracked calls prior) now⟩
      · rw [List.concat_eq_append,← List.cons_append,← List.append_assoc] at split_
        obtain ⟨whole,one⟩ := List.append_inj' split_ rfl
        rw [List.concat_eq_append,← List.cons_append] at reads
        obtain ⟨s,known,early⟩ := ih prior ⟨pre,init,whole,updates,fun x present => reads x (List.mem_append_left _ present)⟩
        rw [known,List.singleton_inj.mp one]
        have lastReads := reads last (List.mem_append_right _ (List.mem_singleton_self _))
        cases last with
        | pulse relay time => exact ⟨s,rfl,early⟩
        | update inputs time p =>
            have seen := (observe_held inputs).mpr (lastReads inputs rfl)
            unfold heldStep
            dsimp only
            rw [if_pos seen]
            exact ⟨s,rfl,early⟩

theorem confirmed_iff (calls : List GateCall) (inputs : UInt8) (time : Nat) (p : GateParams) (paced : PacedCalls (calls ++ [.update inputs time p])) :
    (GateTracker.observe inputs = .openHeld ∧ (heldSince calls).getD time + p.holdConfirmMs.toNat ≤ time) ↔
      ∃ first, HeldFrom (calls ++ [.update inputs time p]) first ∧ first.time + p.holdConfirmMs.toNat ≤ time := by
  have since : heldSince (calls ++ [.update inputs time p]) =
      if GateTracker.observe inputs = .openHeld then some ((heldSince calls).getD time) else none := heldSince_snoc calls _
  constructor
  · rintro ⟨seen,whole⟩
    rw [if_pos seen] at since
    obtain ⟨first,from_,at_⟩ := held_since_from _ _ since
    exact ⟨first,from_,by rw [at_]; exact whole⟩
  · rintro ⟨first,from_,whole⟩
    obtain ⟨s,known,early⟩ := held_from_since _ first paced from_
    rw [since] at known
    by_cases seen : GateTracker.observe inputs = .openHeld
    · rw [if_pos seen] at known
      have own : (heldSince calls).getD time = s := Option.some.inj known
      exact ⟨seen,by omega⟩
    · rw [if_neg seen] at known
      cases known

-- After every update of a run that is paced: the hold and its source go with the state, the state goes with the inputs and a
-- hold with their span, the bits tell what changed, and a hold is put down to what the calls before it showed.
theorem gate_state_and_hold (calls : List GateCall) (inputs : UInt8) (time : Nat) (p : GateParams)
    (paced : PacedCalls (calls ++ [GateCall.update inputs time p])) :
    ((gateAfter (calls ++ [GateCall.update inputs time p])).held = true ↔ (gateAfter (calls ++ [GateCall.update inputs time p])).state = .openHeld) ∧
    ((gateAfter (calls ++ [GateCall.update inputs time p])).held = true ↔ (gateAfter (calls ++ [GateCall.update inputs time p])).source ≠ .none) ∧
    (¬ReadsHeld inputs → (gateAfter (calls ++ [GateCall.update inputs time p])).state = GateTracker.observe inputs) ∧
    ((gateAfter calls).state ≠ .openHeld → ((gateAfter (calls ++ [GateCall.update inputs time p])).state = .openHeld ↔
      ∃ first, HeldFrom (calls ++ [GateCall.update inputs time p]) first ∧ first.time + p.holdConfirmMs.toNat ≤ time)) ∧
    (((gateAfter calls).update inputs (stamp time) p).2.state = true ↔
      (gateAfter (calls ++ [GateCall.update inputs time p])).state ≠ (gateAfter calls).state) ∧
    (((gateAfter calls).update inputs (stamp time) p).2.hold = true ↔
      (gateAfter (calls ++ [GateCall.update inputs time p])).held ≠ (gateAfter calls).held) ∧
    ((gateAfter (calls ++ [GateCall.update inputs time p])).held = (gateAfter calls).held →
      (gateAfter (calls ++ [GateCall.update inputs time p])).source = (gateAfter calls).source) ∧
    ((gateAfter calls).held = false → (gateAfter (calls ++ [GateCall.update inputs time p])).held = true →
      ((gateAfter (calls ++ [GateCall.update inputs time p])).source = .lran → LranPulse calls (.update inputs time p)) ∧
      ((gateAfter (calls ++ [GateCall.update inputs time p])).source = .unknown ↔ (gateAfter calls).state = .unknown) ∧
      ((gateAfter (calls ++ [GateCall.update inputs time p])).source = .keypadFire → FireSince (calls ++ [GateCall.update inputs time p]))) := by
  obtain ⟨prior,now⟩ := (always_snoc calls _).mp paced
  have tracked := run_tracked calls prior
  have after := run_tracked _ paced
  have updated := (gateAfter calls).update_updated inputs (stamp time) p
  have stepped : gateAfter (calls ++ [.update inputs time p]) = ((gateAfter calls).update inputs (stamp time) p).1 := gateAfter_snoc calls _
  rw [← stepped] at updated
  have confirmed := confirmed_iff calls inputs time p paced
  refine ⟨?_,?_,?_,?_,?_,?_,?_,?_⟩
  · rw [after.held]
    exact beq_iff_eq
  · constructor
    · intro on none_
      exact absurd (on.symm.trans (after.source.mp none_)) (by decide)
    · intro named
      by_contra off
      exact named (after.source.mpr (Bool.eq_false_iff.mpr off))
  · intro other
    rw [updated.state]
    unfold GateTracker.derived
    exact if_neg fun both => other ((observe_held inputs).mp both.1)
  · intro open_
    rw [updated.state,derived_held tracked now open_]
    exact confirmed
  · rw [updated.changes]
    exact decide_eq_true_iff
  · rw [updated.changes]
    exact bne_iff_ne
  · intro same
    rw [updated.source,if_pos same]
  · intro off on
    have opens : (gateAfter (calls ++ [.update inputs time p])).state = .openHeld := by
      rw [after.held] at on
      exact eq_of_beq on
    have open_ : (gateAfter calls).state ≠ .openHeld := by
      intro already
      have held := tracked.held
      rw [off,already] at held
      exact absurd held (by decide)
    have left : (if (gateAfter (calls ++ [.update inputs time p])).state ≠ (gateAfter calls).state ∧
        (gateAfter (calls ++ [.update inputs time p])).state = .openHeld then (gateAfter calls).state else (gateAfter calls).beforeHold) =
        (gateAfter calls).state := if_pos ⟨fun same => open_ (same.symm.trans opens),opens⟩
    have named := updated.source
    rw [left,off,on,if_neg (by decide),if_pos rfl] at named
    refine ⟨?_,?_,?_⟩
    · intro lran
      rw [named] at lran
      split at lran
      · cases lran
      · split at lran
        · rename_i stands
          obtain ⟨base,since,post,claimed,live,_,_⟩ := stands_claimed tracked now stands
          obtain ⟨before,rfl⟩ := claimed.pulse
          exact ⟨before,since,post,claimed.whole,claimed.kept,live⟩
        · split at lran
          · cases lran
          · cases lran
    · rw [named]
      split
      · rename_i boot
        exact ⟨fun _ => boot,fun _ => rfl⟩
      · rename_i boot
        refine ⟨fun unknown => ?_,fun is => absurd is boot⟩
        split at unknown
        · cases unknown
        · split at unknown
          · cases unknown
          · cases unknown
    · intro fire
      apply after.fire
      rw [updated.fireClaim]
      rw [named] at fire
      split at fire
      · cases fire
      · split at fire
        · cases fire
        · split at fire
          · rename_i stands
            exact stands
          · cases fire

def closesIntoHold : List GateCall := [.update 0 0 {},.update inMoving 100 {},.update inOpen 200 {}]

theorem gate_state_and_hold_manual : (gateAfter (closesIntoHold ++ [.update inOpen 2200 {}])).source = .manual ∧
    ∃ first, HeldFrom (closesIntoHold ++ [.update inOpen 2200 {}]) first ∧ first.time + 2000 ≤ 2200 := by
  have paced : PacedCalls (closesIntoHold ++ [.update inOpen 2200 {}]) := by
    refine (always_snoc _ _).mpr ⟨(always_snoc [GateCall.update 0 0 {},.update inMoving 100 {}] _).mpr
      ⟨(always_snoc [GateCall.update 0 0 {}] _).mpr ⟨(always_snoc [] _).mpr ⟨always_nil,?_⟩,?_⟩,?_⟩,?_⟩
    all_goals
      refine ⟨by decide,?_,?_⟩
      · intro _ m known
        cases known <;> decide
      · intro p own
        cases own
        decide
  have law := gate_state_and_hold closesIntoHold inOpen 2200 {} paced
  exact ⟨by decide +kernel,(law.2.2.2.1 (by decide)).mp (by decide +kernel)⟩

-- A hold read for longer than the counter's turn that is never confirmed, and one put down to a pulse that nothing followed.

def heldForLong : List GateCall :=
  [.update inOpen 0 {holdConfirmMs := 4294967295},.update inOpen 2147483647 {holdConfirmMs := 4294967295},
    .update inOpen 4294967294 {holdConfirmMs := 4294967295}]

def pulsedWhileHeld : List GateCall :=
  [.update 0 0 {},.update (inOpen ||| inMoving) 100 {},.update inOpen 200 {},.pulse relayOpenLock 1200]

theorem hold_span_unconfirmed : ((gateAfter heldForLong).state ≠ .openHeld ∧
      ¬((gateAfter (heldForLong ++ [.update inOpen 6442450941 {holdConfirmMs := 4294967295}])).state = .openHeld ↔
        ∃ first, HeldFrom (heldForLong ++ [.update inOpen 6442450941 {holdConfirmMs := 4294967295}]) first ∧
          first.time + 4294967295 ≤ 6442450941)) ∧
    (gateAfter (pulsedWhileHeld ++ [.update inOpen 2200 {}])).source = .lran ∧ ¬Shows pulsedWhileHeld (.update inOpen 2200 {}) := by
  refine ⟨⟨by decide,?_⟩,by decide +kernel,?_⟩
  · intro confirmed
    have unheld : (gateAfter (heldForLong ++ [.update inOpen 6442450941 {holdConfirmMs := 4294967295}])).state ≠ .openHeld := by decide +kernel
    apply unheld
    refine confirmed.mpr ⟨.update inOpen 0 {holdConfirmMs := 4294967295},⟨[],_,rfl,(by intro none_; cases none_),?_⟩,by decide⟩
    intro c present inputs own
    have open_ : inputs = inOpen := by
      change c ∈ [GateCall.update inOpen 0 {holdConfirmMs := 4294967295},.update inOpen 2147483647 {holdConfirmMs := 4294967295},
        .update inOpen 4294967294 {holdConfirmMs := 4294967295},.update inOpen 6442450941 {holdConfirmMs := 4294967295}] at present
      simp only [List.mem_cons,List.not_mem_nil,or_false] at present
      rcases present with rfl | rfl | rfl | rfl <;> exact (Option.some.inj own).symm
    rw [open_]
    exact ⟨by decide,by decide,by decide⟩
  · unfold Shows
    decide

end LoraRan.GateLink
