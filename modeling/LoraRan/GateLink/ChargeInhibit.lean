import LoraRan.GateLink.AlarmWatch
import LoraRan.GateLink.Readings

namespace LoraRan.GateLink
open Protocol VeDirect Node

structure ChargeParams where
  confirmMs : UInt32 := 300000
  tempC : Int16 := 0
  bandMa : UInt32 := 100
  riseMv : UInt32 := 20
  bmsPollS : UInt32 := 300

inductive ChargeSource where
  | none | bms | veDirect
  deriving DecidableEq, Repr

def csBulk : UInt8 := 3
def csAbsorption : UInt8 := 4

def pvOverBattMv : UInt32 := 1000

-- A BMS read older than this many polls no longer decides.
def bmsFreshPolls : UInt32 := 3

-- In 0.1 C: a pack sitting at the threshold must not flap.
def bmsReleaseBandDc : Int := 10

-- A span has passed by unsigned difference.
def passed (now since span : UInt32) : Bool := decide (span ≤ now - since)

def wirePath : ChargeSource → UInt16
  | .bms => 1
  | .veDirect => 2
  | .none => 0

structure ChargeInhibit where
  inhibited : Bool := false
  source : ChargeSource := .none
  path : ChargeSource := .none
  vedInferred : Bool := false
  vedMet : Bool := false
  vedSinceMs : UInt32 := 0
  vedRefMv : UInt16 := 0
  deriving DecidableEq

def MpptSnapshot.isStale (m : MpptSnapshot) : Bool := m.mpptFlags &&& mpptFlagStale != 0

-- One reading meets every part of the condition but the rise.
def chargeWanted (m : MpptSnapshot) (p : ChargeParams) : Bool :=
  !m.isStale && m.pvCv != u16NotAvailable && m.battMv != u16NotAvailable &&
    decide (m.battMv.toUInt32 + pvOverBattMv ≤ m.pvCv.toUInt32 * 10) && (m.chargeState == csBulk || m.chargeState == csAbsorption) &&
    m.battMa != i16NotAvailable && decide (m.battMa.toInt.natAbs ≤ p.bandMa.toNat)

def ChargeInhibit.vedUpdate (c : ChargeInhibit) (m : MpptSnapshot) (nowMs : UInt32) (p : ChargeParams) : ChargeInhibit :=
  -- A rise since the condition began means the battery is taking charge.
  let met := chargeWanted m p && !(c.vedMet && decide (c.vedRefMv.toUInt32 + p.riseMv < m.battMv.toUInt32))
  let c :=
    if met ≠ c.vedMet then {c with vedMet := met,vedSinceMs := nowMs,vedRefMv := m.battMv}
    else if met ∧ m.battMv < c.vedRefMv then {c with vedRefMv := m.battMv}
    else c
  if c.vedMet ≠ c.vedInferred ∧ passed nowMs c.vedSinceMs p.confirmMs then {c with vedInferred := c.vedMet} else c

def coldest (d : BmsData) : Int16 :=
  ((d.tempDc.take (min d.tempCount.toNat maxTemps)).drop 1).foldl (fun low t => if t < low then t else low) (d.tempDc.getD 0 0)

def freshSpanMs (p : ChargeParams) : UInt32 := bmsFreshPolls * p.bmsPollS * 1000 + 1

def bmsFresh (b : BmsSnapshot) (nowMs : UInt32) (p : ChargeParams) : Bool :=
  b.have_ && decide (0 < b.data.tempCount) && !passed nowMs b.readMs (freshSpanMs p)

-- The path that decides a pass and what it says. `c` has run its inference for the pass already.
def ChargeInhibit.judge (c : ChargeInhibit) (m : MpptSnapshot) (b : BmsSnapshot) (nowMs : UInt32) (p : ChargeParams) : ChargeSource × Bool :=
  if bmsFresh b nowMs p then
    let limitDc := p.tempC.toInt * 10 + if c.inhibited && c.source == .bms then bmsReleaseBandDc else 0
    (.bms,decide ((coldest b.data).toInt ≤ limitDc) && decide (b.data.currentMa ≤ p.bandMa.toInt32))
  else if !m.isStale then (.veDirect,c.vedInferred)
  else (.none,false)

def ChargeInhibit.update (c : ChargeInhibit) (m : MpptSnapshot) (b : BmsSnapshot) (nowMs : UInt32) (p : ChargeParams) (g : GateContext)
    (ids : UInt32) (out : List Push) : Bool × ChargeInhibit × UInt32 × List Push :=
  -- Run every pass, so the inference is warm when the BMS goes quiet.
  let c := c.vedUpdate m nowMs p
  let (path,next) := c.judge m b nowMs p
  let c := {c with path := path}
  if next = c.inhibited then (false,c,ids,out)
  else
    let c := {c with inhibited := next,source := if next then path else .none}
    let out := addPush out (.status .chargeInhibited)
    if next then (true,c,ids + 1,addPush out (.event {g.event .chargeInhibited (ids + 1) with detail := wirePath c.source}))
    else (true,c,ids,out)

theorem update_path (c : ChargeInhibit) (m : MpptSnapshot) (b : BmsSnapshot) (nowMs : UInt32) (p : ChargeParams) (g : GateContext)
    (ids : UInt32) (out : List Push) : (c.update m b nowMs p g ids out).2.1.path = ((c.vedUpdate m nowMs p).judge m b nowMs p).1 := by
  unfold ChargeInhibit.update
  dsimp only
  split
  · rfl
  · split
    · rfl
    · rfl

-- A pass goes by the BMS exactly when its read counts as fresh.
theorem update_path_bms (c : ChargeInhibit) (m : MpptSnapshot) (b : BmsSnapshot) (nowMs : UInt32) (p : ChargeParams) (g : GateContext)
    (ids : UInt32) (out : List Push) : (c.update m b nowMs p g ids out).2.1.path = .bms ↔ bmsFresh b nowMs p = true := by
  rw [update_path,ChargeInhibit.judge]
  cases bmsFresh b nowMs p with
  | true => exact ⟨fun _ => rfl,fun _ => rfl⟩
  | false =>
      rw [if_neg (by decide)]
      split
      · exact ⟨(fun is => by cases is),(fun is => by cases is)⟩
      · exact ⟨(fun is => by cases is),(fun is => by cases is)⟩

end LoraRan.GateLink
