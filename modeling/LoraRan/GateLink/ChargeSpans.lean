import LoraRan.GateLink.AppTask
import LoraRan.Library.Clock
import Mathlib.Data.List.Induction

namespace LoraRan.GateLink
open Protocol VeDirect Node Library.Clock

-- A pass of app_task as the charge inhibition sees it, at an unbounded time.
structure ChargeRead where
  time : Nat
  m : MpptSnapshot
  b : BmsSnapshot
  g : GateContext
  ids : UInt32
  out : List Push

abbrev ChargeRead.now (r : ChargeRead) : UInt32 := stamp r.time

def ChargeInhibit.read (c : ChargeInhibit) (p : ChargeParams) (r : ChargeRead) : Bool × ChargeInhibit × UInt32 × List Push :=
  c.update r.m r.b r.now p r.g r.ids r.out

def chargeAfter (p : ChargeParams) (reads : List ChargeRead) : ChargeInhibit :=
  reads.foldl (fun c r => (c.read p r).2.1) {}

def Onward (reads : List ChargeRead) : Prop := reads.Pairwise fun earlier later => earlier.time ≤ later.time

-- The parts of the condition a reading shows by itself.
structure Wanting (p : ChargeParams) (m : MpptSnapshot) : Prop where
  fresh : m.isStale = false
  pv : m.pvCv ≠ u16NotAvailable
  batt : m.battMv ≠ u16NotAvailable
  above : m.battMv.toNat + 1000 ≤ m.pvCv.toNat * 10
  charging : m.chargeState = csBulk ∨ m.chargeState = csAbsorption
  current : m.battMa ≠ i16NotAvailable
  idle : m.battMa.toInt.natAbs ≤ p.bandMa.toNat

-- No reading lies more than the rise above an earlier one, so none above the lowest of them.
def NotRising (p : ChargeParams) (span : List ChargeRead) : Prop :=
  span.Pairwise fun earlier later => later.m.battMv.toNat ≤ earlier.m.battMv.toNat + p.riseMv.toNat

def counted (p : ChargeParams) (reads : List ChargeRead) : Bool := (chargeAfter p reads).vedMet

-- The reads from the `front`-th on met the condition, or counted as not meeting it.

def MetSpan (p : ChargeParams) (span : List ChargeRead) : Prop := (∀ r ∈ span, Wanting p r.m) ∧ NotRising p span

def UnmetSpan (p : ChargeParams) (front span : List ChargeRead) : Prop :=
  ∀ k, k < span.length → counted p (front ++ span.take (k + 1)) = false

theorem chargeWanted_iff (m : MpptSnapshot) (p : ChargeParams) : chargeWanted m p = true ↔ Wanting p m := by
  have volts := m.battMv.toNat_lt
  have panel := m.pvCv.toNat_lt
  have sum : (m.battMv.toUInt32 + pvOverBattMv ≤ m.pvCv.toUInt32 * 10) ↔ m.battMv.toNat + 1000 ≤ m.pvCv.toNat * 10 := by
    have thousand : pvOverBattMv.toNat = 1000 := rfl
    have ten : (10 : UInt32).toNat = 10 := rfl
    rw [UInt32.le_iff_toNat_le,UInt32.toNat_add,UInt32.toNat_mul,UInt16.toNat_toUInt32,UInt16.toNat_toUInt32,thousand,ten]
    omega
  unfold chargeWanted
  constructor
  · intro wanted
    simp only [Bool.and_eq_true,Bool.or_eq_true,Bool.not_eq_true',bne_iff_ne,beq_iff_eq,decide_eq_true_eq,sum] at wanted
    obtain ⟨⟨⟨⟨⟨⟨fresh,pv⟩,batt⟩,above⟩,charging⟩,current⟩,idle⟩ := wanted
    exact ⟨fresh,pv,batt,above,charging,current,idle⟩
  · intro wanted
    simp only [Bool.and_eq_true,Bool.or_eq_true,Bool.not_eq_true',bne_iff_ne,beq_iff_eq,decide_eq_true_eq,sum]
    exact ⟨⟨⟨⟨⟨⟨wanted.fresh,wanted.pv⟩,wanted.batt⟩,wanted.above⟩,wanted.charging⟩,wanted.current⟩,wanted.idle⟩

namespace ChargeInhibit
variable (c : ChargeInhibit) (p : ChargeParams) (m : MpptSnapshot) (nowMs : UInt32) (r : ChargeRead)

def meets : Bool := chargeWanted m p && !(c.vedMet && decide (c.vedRefMv.toUInt32 + p.riseMv < m.battMv.toUInt32))

-- What the inference has noted of a reading, before it looks at how long that has held.
def marked : ChargeInhibit :=
  if c.meets p m ≠ c.vedMet then {c with vedMet := c.meets p m,vedSinceMs := nowMs,vedRefMv := m.battMv}
  else if c.meets p m ∧ m.battMv < c.vedRefMv then {c with vedRefMv := m.battMv}
  else c

theorem vedUpdate_eq : c.vedUpdate m nowMs p =
    if (c.marked p m nowMs).vedMet ≠ (c.marked p m nowMs).vedInferred ∧ passed nowMs (c.marked p m nowMs).vedSinceMs p.confirmMs then
      {c.marked p m nowMs with vedInferred := (c.marked p m nowMs).vedMet}
    else c.marked p m nowMs := rfl

theorem marked_inferred : (c.marked p m nowMs).vedInferred = c.vedInferred := by
  unfold marked
  split
  · rfl
  · split
    · rfl
    · rfl

-- The inference is all that an update changes of the inference's own state.
theorem read_ved : ((c.read p r).2.1).vedMet = (c.marked p r.m r.now).vedMet ∧ ((c.read p r).2.1).vedSinceMs = (c.marked p r.m r.now).vedSinceMs ∧
    ((c.read p r).2.1).vedRefMv = (c.marked p r.m r.now).vedRefMv ∧ ((c.read p r).2.1).vedInferred = (c.vedUpdate r.m r.now p).vedInferred := by
  have kept : ∀ d : ChargeInhibit, d = c.vedUpdate r.m r.now p → d.vedMet = (c.marked p r.m r.now).vedMet ∧
      d.vedSinceMs = (c.marked p r.m r.now).vedSinceMs ∧ d.vedRefMv = (c.marked p r.m r.now).vedRefMv ∧ d.vedInferred = (c.vedUpdate r.m r.now p).vedInferred := by
    rintro d rfl
    rw [vedUpdate_eq]
    split
    · exact ⟨rfl,rfl,rfl,rfl⟩
    · exact ⟨rfl,rfl,rfl,rfl⟩
  obtain ⟨met,since,ref,inferred⟩ := kept _ rfl
  unfold read update
  dsimp only
  split
  · exact ⟨met,since,ref,inferred⟩
  · split
    · exact ⟨met,since,ref,inferred⟩
    · exact ⟨met,since,ref,inferred⟩

end ChargeInhibit

theorem chargeAfter_snoc (p : ChargeParams) (reads : List ChargeRead) (r : ChargeRead) :
    chargeAfter p (reads ++ [r]) = ((chargeAfter p reads).read p r).2.1 := by
  unfold chargeAfter
  rw [List.foldl_append]
  rfl

-- Where the reads since the condition's last turn begin, and what they showed.
structure Spanned (p : ChargeParams) (reads : List ChargeRead) (c : ChargeInhibit) : Prop where
  met : c.vedMet = true → ∃ front first rest, reads = front ++ first :: rest ∧ c.vedSinceMs = first.now ∧ MetSpan p (first :: rest) ∧
    ∀ r ∈ first :: rest, c.vedRefMv.toNat ≤ r.m.battMv.toNat
  unmet : c.vedMet = false → c.vedInferred = true →
    ∃ front first rest, reads = front ++ first :: rest ∧ c.vedSinceMs = first.now ∧ UnmetSpan p front (first :: rest)

theorem metSpan_one {p : ChargeParams} {u : ChargeRead} (wanting : Wanting p u.m) : MetSpan p [u] := by
  refine ⟨?_,List.pairwise_singleton ..⟩
  intro r present
  rw [List.mem_singleton.mp present]
  exact wanting

theorem metSpan_snoc {p : ChargeParams} {c : ChargeInhibit} {span : List ChargeRead} {u : ChargeRead} (prior : MetSpan p span)
    (lowest : ∀ r ∈ span, c.vedRefMv.toNat ≤ r.m.battMv.toNat) (met : c.vedMet = true) (meets : c.meets p u.m = true) : MetSpan p (span ++ [u]) := by
  unfold ChargeInhibit.meets at meets
  simp only [met,Bool.true_and,Bool.and_eq_true,Bool.not_eq_true',decide_eq_false_iff_not,UInt32.not_lt] at meets
  obtain ⟨wanted,level⟩ := meets
  have near : u.m.battMv.toNat ≤ c.vedRefMv.toNat + p.riseMv.toNat := by
    rw [UInt32.le_iff_toNat_le,UInt32.toNat_add,UInt16.toNat_toUInt32,UInt16.toNat_toUInt32] at level
    exact Nat.le_trans level (Nat.mod_le ..)
  refine ⟨?_,List.pairwise_append.mpr ⟨prior.2,List.pairwise_singleton ..,?_⟩⟩
  · intro r present
    rcases List.mem_append.mp present with old | new
    · exact prior.1 r old
    · rw [List.mem_singleton.mp new]
      exact (chargeWanted_iff u.m p).mp wanted
  · intro earlier present later new
    rw [List.mem_singleton.mp new]
    have low := lowest earlier present
    omega

theorem unmetSpan_one {p : ChargeParams} {front : List ChargeRead} {u : ChargeRead} (unmet : counted p (front ++ [u]) = false) :
    UnmetSpan p front [u] := by
  intro k short
  have zero : k = 0 := Nat.lt_one_iff.mp short
  rw [zero]
  exact unmet

theorem unmetSpan_snoc {p : ChargeParams} {front span : List ChargeRead} {u : ChargeRead} (prior : UnmetSpan p front span)
    (unmet : counted p (front ++ span ++ [u]) = false) : UnmetSpan p front (span ++ [u]) := by
  intro k short
  rw [List.length_append,List.length_singleton] at short
  by_cases old : k < span.length
  · rw [List.take_append_of_le_length old]
    exact prior k old
  · have last : k + 1 = (span ++ [u]).length := by
      rw [List.length_append,List.length_singleton]
      omega
    rw [last,List.take_length,← List.append_assoc]
    exact unmet

theorem counted_snoc (p : ChargeParams) (reads : List ChargeRead) (u : ChargeRead) :
    counted p (reads ++ [u]) = ((chargeAfter p reads).marked p u.m u.now).vedMet := by
  unfold counted
  rw [chargeAfter_snoc]
  exact ((chargeAfter p reads).read_ved p u).1

-- One reading moves the span on or begins another.
theorem marked_spanned (p : ChargeParams) (reads : List ChargeRead) (u : ChargeRead) (before : Spanned p reads (chargeAfter p reads)) :
    Spanned p (reads ++ [u]) ((chargeAfter p reads).marked p u.m u.now) := by
  have inferred := (chargeAfter p reads).marked_inferred p u.m u.now
  have count := counted_snoc p reads u
  generalize chargeAfter p reads = c at before inferred count ⊢
  cases meets : c.meets p u.m with
  | true =>
      have wanting : Wanting p u.m := by
        unfold ChargeInhibit.meets at meets
        exact (chargeWanted_iff u.m p).mp (Bool.and_eq_true_iff.mp meets).1
      cases met : c.vedMet with
      | false =>
          have marks : c.marked p u.m u.now = {c with vedMet := true,vedSinceMs := u.now,vedRefMv := u.m.battMv} := by
            unfold ChargeInhibit.marked
            rw [meets,met,if_pos (by decide)]
          rw [marks]
          refine ⟨fun _ => ⟨reads,u,[],rfl,rfl,metSpan_one wanting,?_⟩,fun unmet => Bool.noConfusion unmet⟩
          intro r present
          rw [List.mem_singleton.mp present]
      | true =>
          obtain ⟨front,first,rest,split_,since,span,lowest⟩ := before.met met
          have longer := metSpan_snoc span lowest met meets
          have whole : reads ++ [u] = front ++ first :: (rest ++ [u]) := by
            rw [split_,List.append_assoc,List.cons_append]
          unfold ChargeInhibit.marked
          rw [meets,met,if_neg (by decide)]
          split
          · rename_i lower
            have below := UInt16.lt_iff_toNat_lt.mp lower.2
            refine ⟨fun _ => ⟨front,first,rest ++ [u],whole,since,longer,?_⟩,fun unmet => Bool.noConfusion unmet⟩
            intro r present
            rw [← List.cons_append] at present
            rcases List.mem_append.mp present with old | new
            · exact Nat.le_trans (Nat.le_of_lt below) (lowest r old)
            · rw [List.mem_singleton.mp new]
          · rename_i notLower
            refine ⟨fun _ => ⟨front,first,rest ++ [u],whole,since,longer,?_⟩,fun unmet => Bool.noConfusion (met.symm.trans unmet)⟩
            intro r present
            rw [← List.cons_append] at present
            rcases List.mem_append.mp present with old | new
            · exact lowest r old
            · have above : ¬u.m.battMv < c.vedRefMv := fun below => notLower ⟨rfl,below⟩
              rw [List.mem_singleton.mp new]
              exact Nat.le_of_not_lt fun below => above (UInt16.lt_iff_toNat_lt.mpr below)
  | false =>
      cases met : c.vedMet with
      | true =>
          have marks : c.marked p u.m u.now = {c with vedMet := false,vedSinceMs := u.now,vedRefMv := u.m.battMv} := by
            unfold ChargeInhibit.marked
            rw [meets,met,if_pos (by decide)]
          rw [marks] at count ⊢
          exact ⟨fun counts => Bool.noConfusion counts,fun _ _ => ⟨reads,u,[],rfl,rfl,unmetSpan_one count⟩⟩
      | false =>
          have marks : c.marked p u.m u.now = c := by
            unfold ChargeInhibit.marked
            rw [meets,met,if_neg (by decide),if_neg fun lower => Bool.noConfusion lower.1]
          rw [marks] at count ⊢
          refine ⟨fun counts => Bool.noConfusion (met.symm.trans counts),fun _ on => ?_⟩
          obtain ⟨front,first,rest,split_,since,span⟩ := before.unmet met on
          refine ⟨front,first,rest ++ [u],by rw [split_,List.append_assoc,List.cons_append],since,?_⟩
          exact unmetSpan_snoc span (by rw [← split_,count,met])

-- The span a noted reading ends is the one the inference is timed by.
theorem spanned_read (p : ChargeParams) (reads : List ChargeRead) (u : ChargeRead) (before : Spanned p reads (chargeAfter p reads)) :
    Spanned p (reads ++ [u]) (chargeAfter p (reads ++ [u])) := by
  have marked := marked_spanned p reads u before
  obtain ⟨met,since,ref,inferred⟩ := (chargeAfter p reads).read_ved p u
  rw [chargeAfter_snoc]
  refine ⟨?_,?_⟩
  · rw [met,since,ref]
    exact marked.met
  · rw [met,since,inferred]
    intro unmet on
    refine marked.unmet unmet ?_
    rw [ChargeInhibit.vedUpdate_eq] at on
    split at on
    · exact absurd (unmet.symm.trans on) (by decide)
    · exact on

theorem spanned (p : ChargeParams) (reads : List ChargeRead) : Spanned p reads (chargeAfter p reads) := by
  induction reads using List.reverseRecOn with
  | nil => exact ⟨fun met => Bool.noConfusion met,fun _ on => Bool.noConfusion on⟩
  | append_singleton reads u ih => exact spanned_read p reads u ih

-- A span the counter shows as passed has passed.
theorem passed_real {since time : Nat} {span : UInt32} (later : since ≤ time) (shown : passed (stamp time) (stamp since) span = true) :
    since + span.toNat ≤ time := by
  have whole := UInt32.le_iff_toNat_le.mp (of_decide_eq_true shown)
  rw [stamp_sub since time later] at whole
  have part := Nat.mod_le (time - since) (2 ^ 32)
  omega

theorem first_earlier {reads front rest : List ChargeRead} {u first : ChargeRead} (onward : Onward (reads ++ [u]))
    (split_ : reads ++ [u] = front ++ first :: rest) : first.time ≤ u.time := by
  have present : first ∈ reads ++ [u] := by
    rw [split_]
    exact List.mem_append_right front (List.mem_cons_self ..)
  rcases List.mem_append.mp present with old | new
  · exact (List.pairwise_append.mp onward).2.2 first old u (List.mem_singleton_self u)
  · rw [List.mem_singleton.mp new]

-- The inference changes only when what the readings show has been so for the whole span.

def TurnsOn (p : ChargeParams) (reads : List ChargeRead) (u : ChargeRead) : Prop :=
  ∃ front first rest, reads ++ [u] = front ++ first :: rest ∧ first.time + p.confirmMs.toNat ≤ u.time ∧ MetSpan p (first :: rest)

def TurnsOff (p : ChargeParams) (reads : List ChargeRead) (u : ChargeRead) : Prop :=
  ∃ front first rest, reads ++ [u] = front ++ first :: rest ∧ first.time + p.confirmMs.toNat ≤ u.time ∧ UnmetSpan p front (first :: rest)

section
variable (p : ChargeParams) (reads : List ChargeRead) (u : ChargeRead)

theorem inference_turns (onward : Onward (reads ++ [u])) :
    ((chargeAfter p reads).vedInferred = false → (chargeAfter p (reads ++ [u])).vedInferred = true → TurnsOn p reads u) ∧
    ((chargeAfter p reads).vedInferred = true → (chargeAfter p (reads ++ [u])).vedInferred = false → TurnsOff p reads u) := by
  have marked := marked_spanned p reads u (spanned p reads)
  have kept := (chargeAfter p reads).marked_inferred p u.m u.now
  have inferred := ((chargeAfter p reads).read_ved p u).2.2.2
  rw [← chargeAfter_snoc,ChargeInhibit.vedUpdate_eq] at inferred
  generalize (chargeAfter p reads).marked p u.m u.now = c at marked kept inferred
  rw [inferred,← kept]
  refine ⟨?_,?_⟩
  · intro off on
    split at on
    · rename_i turns
      obtain ⟨front,first,rest,split_,since,span,_⟩ := marked.met on
      have shown := turns.2
      rw [since] at shown
      exact ⟨front,first,rest,split_,passed_real (first_earlier onward split_) shown,span⟩
    · exact absurd (off.symm.trans on) (by decide)
  · intro on off
    split at off
    · rename_i turns
      obtain ⟨front,first,rest,split_,since,span⟩ := marked.unmet off on
      have shown := turns.2
      rw [since] at shown
      exact ⟨front,first,rest,split_,passed_real (first_earlier onward split_) shown,span⟩
    · exact absurd (on.symm.trans off) (by decide)

-- The evidence a pass goes by, and what it says of the pack.
structure Decided (c after : ChargeInhibit) : Prop where
  bms : bmsFresh u.b u.now p = true → after.path = .bms ∧ (after.inhibited = true ↔
    (coldest u.b.data).toInt ≤ p.tempC.toInt * 10 + (if c.inhibited = true ∧ c.source = .bms then 10 else 0) ∧
      u.b.data.currentMa ≤ p.bandMa.toInt32)
  inference : bmsFresh u.b u.now p = false → u.m.isStale = false → after.path = .veDirect ∧ after.inhibited = after.vedInferred
  blind : bmsFresh u.b u.now p = false → u.m.isStale = true → after.path = .none ∧ after.inhibited = false

def Sourced (c : ChargeInhibit) : Prop := c.source = .none ↔ c.inhibited = false

-- What a pass tells the bridge.
def told (c after : ChargeInhibit) : List Push :=
  if after.inhibited = c.inhibited then []
  else .status .chargeInhibited ::
    if after.inhibited then [.event {u.g.event .chargeInhibited (u.ids + 1) with detail := wirePath after.path}] else []

theorem read_judged (c : ChargeInhibit) : (c.read p u).2.1.path = ((c.vedUpdate u.m u.now p).judge u.m u.b u.now p).1 ∧
    (c.read p u).2.1.inhibited = ((c.vedUpdate u.m u.now p).judge u.m u.b u.now p).2 := by
  have kept := vedUpdate_inhibited c u.m u.now p
  unfold ChargeInhibit.read ChargeInhibit.update
  dsimp only
  split
  · rename_i same
    exact ⟨rfl,same.symm⟩
  · split
    · exact ⟨rfl,rfl⟩
    · exact ⟨rfl,rfl⟩

theorem vedUpdate_source (c : ChargeInhibit) (m : MpptSnapshot) (nowMs : UInt32) : (c.vedUpdate m nowMs p).source = c.source := by
  have marked : (c.marked p m nowMs).source = c.source := by
    unfold ChargeInhibit.marked
    split
    · rfl
    · split
      · rfl
      · rfl
  rw [ChargeInhibit.vedUpdate_eq]
  split
  · exact marked
  · exact marked

theorem read_decided (c : ChargeInhibit) : Decided p u c (c.read p u).2.1 := by
  have judged := read_judged p u c
  have inferred := (c.read_ved p u).2.2.2
  have kept := vedUpdate_inhibited c u.m u.now p
  have source := vedUpdate_source p c u.m u.now
  generalize (c.read p u).2.1 = after at judged inferred ⊢
  unfold ChargeInhibit.judge at judged
  refine ⟨?_,?_,?_⟩
  · intro fresh
    rw [if_pos fresh,kept,source] at judged
    obtain ⟨path,inhibited⟩ := judged
    refine ⟨path,?_⟩
    rw [inhibited]
    simp only [Bool.and_eq_true,decide_eq_true_eq,beq_iff_eq,bmsReleaseBandDc]
  · intro old fresh
    rw [if_neg (by rw [old]; decide),if_pos (by rw [fresh]; rfl)] at judged
    obtain ⟨path,inhibited⟩ := judged
    exact ⟨path,inhibited.trans inferred.symm⟩
  · intro old stale
    rw [if_neg (by rw [old]; decide),if_neg (by rw [stale]; decide)] at judged
    exact judged

-- Only a pass that goes by some evidence says inhibited.
theorem decided_path {c after : ChargeInhibit} (decided : Decided p u c after) (on : after.inhibited = true) : after.path ≠ .none := by
  intro blind
  cases fresh : bmsFresh u.b u.now p with
  | true => exact absurd (blind.symm.trans (decided.bms fresh).1) (by decide)
  | false =>
      cases stale : u.m.isStale with
      | true => exact absurd (on.symm.trans (decided.blind fresh stale).2) (by decide)
      | false => exact absurd (blind.symm.trans (decided.inference fresh stale).1) (by decide)

theorem read_source (c : ChargeInhibit) : (c.read p u).2.1.source =
    if (c.read p u).2.1.inhibited = c.inhibited then c.source else if (c.read p u).2.1.inhibited then (c.read p u).2.1.path else .none := by
  have kept := vedUpdate_inhibited c u.m u.now p
  have source := vedUpdate_source p c u.m u.now
  obtain ⟨path,inhibited⟩ := read_judged p u c
  rw [path,inhibited]
  unfold ChargeInhibit.read ChargeInhibit.update
  dsimp only
  rw [kept]
  by_cases same : ((c.vedUpdate u.m u.now p).judge u.m u.b u.now p).2 = c.inhibited
  · rw [if_pos same,if_pos same]
    exact source
  · rw [if_neg same,if_neg same]
    split
    · rfl
    · rfl

theorem read_sourced (c : ChargeInhibit) (sourced : Sourced c) : Sourced (c.read p u).2.1 := by
  have path := decided_path p u (read_decided p u c)
  have source := read_source p u c
  generalize (c.read p u).2.1 = after at path source ⊢
  unfold Sourced at sourced ⊢
  rw [source]
  split
  · rename_i same
    rw [same]
    exact sourced
  · split
    · rename_i on
      rw [on]
      exact ⟨fun blind => absurd blind (path on),fun off => Bool.noConfusion off⟩
    · rename_i off
      exact ⟨fun _ => Bool.eq_false_iff.mpr off,fun _ => rfl⟩

theorem run_sourced (p : ChargeParams) (reads : List ChargeRead) : Sourced (chargeAfter p reads) := by
  induction reads using List.reverseRecOn with
  | nil => exact ⟨fun _ => rfl,fun _ => rfl⟩
  | append_singleton reads u ih =>
      rw [chargeAfter_snoc]
      exact read_sourced p u _ ih

theorem read_asks (c : ChargeInhibit) : c.asks u.m u.b u.now p u.g u.ids = told u c (c.read p u).2.1 := by
  obtain ⟨path,inhibited⟩ := read_judged p u c
  unfold told ChargeInhibit.asks
  rw [path,inhibited]

theorem told_short (c after : ChargeInhibit) : (told u c after).length ≤ 2 := by
  unfold told
  split
  · exact Nat.zero_le 2
  · split
    · exact Nat.le_refl 2
    · exact Nat.le_succ 1

theorem read_ids (c : ChargeInhibit) : (c.read p u).2.2.1 =
    if c.inhibited = false ∧ (c.read p u).2.1.inhibited = true then u.ids + 1 else u.ids := by
  have kept := vedUpdate_inhibited c u.m u.now p
  rw [(read_judged p u c).2]
  unfold ChargeInhibit.read ChargeInhibit.update
  dsimp only
  rw [kept]
  by_cases same : ((c.vedUpdate u.m u.now p).judge u.m u.b u.now p).2 = c.inhibited
  · rw [if_pos same,if_neg]
    rintro ⟨off,on⟩
    exact absurd (off.symm.trans (same.symm.trans on)) (by decide)
  · rw [if_neg same]
    by_cases on : ((c.vedUpdate u.m u.now p).judge u.m u.b u.now p).2 = true
    · have off : c.inhibited = false := Bool.eq_false_iff.mpr fun was => same (on.trans was.symm)
      rw [if_pos on]
      exact (if_pos ⟨off,on⟩).symm
    · rw [if_neg on]
      exact (if_neg fun both => on both.2).symm

end

-- In any run whose times do not go back: the inference turns only over whole spans, a fresh BMS read decides alone, and each
-- pass tells of a change once, with an event at the onset.
theorem charge_inhibition (p : ChargeParams) (reads : List ChargeRead) (u : ChargeRead) (onward : Onward (reads ++ [u])) :
    (((chargeAfter p reads).vedInferred = false → (chargeAfter p (reads ++ [u])).vedInferred = true → TurnsOn p reads u) ∧
      ((chargeAfter p reads).vedInferred = true → (chargeAfter p (reads ++ [u])).vedInferred = false → TurnsOff p reads u)) ∧
    Decided p u (chargeAfter p reads) (chargeAfter p (reads ++ [u])) ∧
    Sourced (chargeAfter p (reads ++ [u])) ∧
    (((chargeAfter p reads).read p u).2.2.2 = (told u (chargeAfter p reads) (chargeAfter p (reads ++ [u]))).foldl addPush u.out ∧
      (u.out.length + 2 ≤ pushListCap →
        ((chargeAfter p reads).read p u).2.2.2 = u.out ++ told u (chargeAfter p reads) (chargeAfter p (reads ++ [u]))) ∧
      ((chargeAfter p reads).read p u).2.2.1 =
        if (chargeAfter p reads).inhibited = false ∧ (chargeAfter p (reads ++ [u])).inhibited = true then u.ids + 1 else u.ids) := by
  have asked : ((chargeAfter p reads).read p u).2.2.2 = (told u (chargeAfter p reads) (chargeAfter p (reads ++ [u]))).foldl addPush u.out := by
    rw [chargeAfter_snoc,← read_asks]
    exact ChargeInhibit.update_asks ..
  refine ⟨inference_turns p reads u onward,?_,run_sourced p _,asked,?_,?_⟩
  · rw [chargeAfter_snoc]
    exact read_decided p u _
  · intro room
    have short := told_short u (chargeAfter p reads) (chargeAfter p (reads ++ [u]))
    rw [asked]
    exact (asked_whole _ _ (by omega)).2
  · rw [chargeAfter_snoc]
    exact read_ids p u _

-- A charger in bulk that puts nothing into a battery it could charge.
def refused (time : Nat) : ChargeRead where
  time := time
  m := {battMv := 13000,battMa := 0,pvCv := 1500,chargeState := csBulk,mpptFlags := 0}
  b := {}
  g := {held := false,holdSource := .none,gateState := .closed,inputBits := 0,uptimeS := 0}
  ids := 7
  out := []

theorem charge_inhibition_onset : (chargeAfter {} [refused 0,refused 300000]).inhibited = true ∧ TurnsOn {} [refused 0] (refused 300000) ∧
    ((chargeAfter {} [refused 0]).read {} (refused 300000)).2.2.2 = told (refused 300000) (chargeAfter {} [refused 0]) (chargeAfter {} [refused 0,refused 300000]) := by
  have onward : Onward ([refused 0] ++ [refused 300000]) := List.pairwise_pair.mpr (Nat.zero_le _)
  have run := charge_inhibition {} [refused 0] (refused 300000) onward
  exact ⟨by decide,run.1.1 (by decide) (by decide),run.2.2.2.2.1 (by decide)⟩

end LoraRan.GateLink
