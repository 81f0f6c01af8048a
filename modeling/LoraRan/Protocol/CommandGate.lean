import LoraRan.Library.Serial
import LoraRan.Protocol.Messages
import LoraRan.Protocol.Counters

namespace LoraRan.Protocol
open Library.Serial

def dedupCacheCapacity : Nat := 32
def defaultDedupCacheDepth : Nat := 8

inductive Verdict where
  | execute | returnCached | inFlight | reject
  deriving DecidableEq, Repr

structure GateResult where
  verdict : Verdict
  status : Status
  cachedResult : AckResult := .accepted
  cachedDetail : UInt8 := 0
  deriving DecidableEq

structure GateEntry where
  seq : Seq := 0
  result : AckResult := .accepted
  detail : UInt8 := 0
  deriving DecidableEq

-- An oldest-first ring of fixed capacity. `inFlight` is the bit of each slot, not of each entry: a slot keeps its
-- bit until `record` or an eviction clears it.
structure CommandGate where
  ctxId : CtxId := 0
  highWater : Seq := 0
  depth : Nat := defaultDedupCacheDepth
  entries : Nat → GateEntry := fun _ => {}
  inFlight : Nat → Bool := fun _ => false
  head : Nat := 0
  count : Nat := 0

def CommandGate.slot (g : CommandGate) (i : Nat) : Nat := (g.head + i) % dedupCacheCapacity

def CommandGate.evictOldest (g : CommandGate) : CommandGate :=
  {g with inFlight := Function.update g.inFlight g.head false,head := (g.head + 1) % dedupCacheCapacity,count := g.count - 1}

-- `while (count_ > depth_) evict_oldest()`
def CommandGate.evictDown (g : CommandGate) : Nat → CommandGate
  | 0 => g
  | fuel+1 => if g.depth < g.count then g.evictOldest.evictDown fuel else g

def CommandGate.setCacheDepth (g : CommandGate) (n : UInt8) : CommandGate :=
  let depth := if n < 1 then 1 else if dedupCacheCapacity < n.toNat then dedupCacheCapacity else n.toNat
  CommandGate.evictDown {g with depth := depth} g.count

def CommandGate.find (g : CommandGate) (seq : Seq) : Option Nat :=
  ((List.range g.count).find? fun i => (g.entries (g.slot i)).seq == seq).map g.slot

def CommandGate.accept (g : CommandGate) (seq : Seq) : CommandGate :=
  let g := {g with highWater := seq}
  let g := if g.count = g.depth then g.evictOldest else g
  let s := g.slot g.count
  {g with
    entries := Function.update g.entries s {seq := seq}
    inFlight := Function.update g.inFlight s true
    count := g.count + 1}

def CommandGate.check (g : CommandGate) (seq : Seq) : GateResult × CommandGate :=
  match g.find seq with
  | some slot =>
      if g.inFlight slot then ({verdict := .inFlight,status := .duplicateInFlight},g)
      else
        let e := g.entries slot
        ({verdict := .returnCached,status := .duplicateCached,cachedResult := e.result,cachedDetail := e.detail},g)
  | none =>
      if !newer seq g.highWater then ({verdict := .reject,status := .rejectedSeq},g)
      else ({verdict := .execute,status := .ok},g.accept seq)

def CommandGate.record (g : CommandGate) (seq : Seq) (result : AckResult) (detail : UInt8) : Bool × CommandGate :=
  match g.find seq with
  | none => (false,g)
  | some slot =>
      if !g.inFlight slot then (false,g)
      else (true,{g with
        entries := Function.update g.entries slot {g.entries slot with result := result,detail := detail}
        inFlight := Function.update g.inFlight slot false})

def CommandGate.resetContext (g : CommandGate) (ctx : CtxId) : CommandGate :=
  {g with ctxId := ctx,highWater := 0,head := 0,count := 0,inFlight := fun _ => false}

def CommandGate.anyInFlight (g : CommandGate) : Bool := (List.range dedupCacheCapacity).any g.inFlight

@[simp] theorem evictDown_highWater (g : CommandGate) (fuel : Nat) : (g.evictDown fuel).highWater = g.highWater := by
  induction fuel generalizing g with
  | zero => rfl
  | succ fuel ih =>
      unfold CommandGate.evictDown
      split
      · rw [ih]; rfl
      · rfl

@[simp] theorem setCacheDepth_highWater (g : CommandGate) (n : UInt8) : (g.setCacheDepth n).highWater = g.highWater := by
  simp [CommandGate.setCacheDepth]

@[simp] theorem record_highWater (g : CommandGate) (seq : Seq) (result : AckResult) (detail : UInt8) :
    (g.record seq result detail).2.highWater = g.highWater := by
  unfold CommandGate.record
  split
  · rfl
  · split <;> rfl

-- Everything `check` can do: only `execute` changes the gate, and only for a seq ahead of the mark.
theorem check_cases (g : CommandGate) (seq : Seq) :
    ((g.check seq).1.verdict = .execute ∧ newer seq g.highWater = true ∧ g.find seq = none ∧
      (g.check seq).2 = g.accept seq) ∨
    ((g.check seq).1.verdict = .inFlight ∧ (g.check seq).2 = g) ∨
    ((g.check seq).1.verdict = .reject ∧ (g.check seq).2 = g) ∨
    (∃ slot, (g.check seq).1.verdict = .returnCached ∧ (g.check seq).2 = g ∧ g.find seq = some slot ∧
      g.inFlight slot = false ∧ (g.check seq).1.cachedResult = (g.entries slot).result) := by
  unfold CommandGate.check
  cases found : g.find seq with
  | some slot =>
      dsimp only
      split
      · exact .inr (.inl ⟨rfl,rfl⟩)
      · rename_i quiet
        exact .inr (.inr (.inr ⟨slot,rfl,rfl,rfl,by simpa using quiet,rfl⟩))
  | none =>
      dsimp only
      split
      · exact .inr (.inr (.inl ⟨rfl,rfl⟩))
      · rename_i ahead
        exact .inl ⟨rfl,by simpa using ahead,rfl,rfl⟩

theorem accept_highWater (g : CommandGate) (seq : Seq) : (g.accept seq).highWater = seq := by
  unfold CommandGate.accept
  dsimp only
  split <;> rfl

theorem find_parts (g : CommandGate) (seq : Seq) (slot : Nat) (found : g.find seq = some slot) :
    ∃ i < g.count, slot = g.slot i ∧ (g.entries slot).seq = seq := by
  unfold CommandGate.find at found
  obtain ⟨i,first,rfl⟩ := Option.map_eq_some_iff.mp found
  have matched := List.find?_some first
  have member := List.mem_of_find?_eq_some first
  exact ⟨i,List.mem_range.mp member,rfl,by simpa using matched⟩

-- Every settled entry of the ring that reads ACCEPTED stands for a seq `D` admits. An entry still in flight stands for nothing.
def CommandGate.Settled (g : CommandGate) (D : Seq → Prop) : Prop :=
  ∀ i < g.count, g.inFlight (g.slot i) = false → (g.entries (g.slot i)).result = .accepted → D (g.entries (g.slot i)).seq

structure Vouched (D : Seq → Prop) (g : CommandGate) : Prop where
  shallow : 1 ≤ g.depth ∧ g.depth ≤ dedupCacheCapacity
  within : g.count ≤ g.depth
  settled : g.Settled D

variable {D E : Seq → Prop} {g : CommandGate}

theorem Vouched.mono (vouched : Vouched D g) (implied : ∀ seq, D seq → E seq) : Vouched E g :=
  ⟨vouched.shallow,vouched.within,fun i inside quiet accepted => implied _ (vouched.settled i inside quiet accepted)⟩

theorem evictOldest_slot (g : CommandGate) (i : Nat) : g.evictOldest.slot i = g.slot (i + 1) := by
  simp only [CommandGate.slot,CommandGate.evictOldest,dedupCacheCapacity]
  omega

-- The slot given up is none of those that stay, as long as the ring is not longer than its storage.
theorem evictOldest_settled (room : g.count ≤ dedupCacheCapacity) (settled : g.Settled D) : g.evictOldest.Settled D := by
  intro i inside quiet accepted
  rw [evictOldest_slot] at quiet accepted ⊢
  have inside : i + 1 < g.count := by
    simp only [CommandGate.evictOldest] at inside
    omega
  have other : g.slot (i + 1) ≠ g.head := by
    simp only [CommandGate.slot,dedupCacheCapacity] at room ⊢
    omega
  simp only [CommandGate.evictOldest,Function.update_of_ne other] at quiet
  exact settled (i + 1) inside quiet accepted

theorem evictDown_settled (fuel : Nat) (g : CommandGate) (room : g.count ≤ dedupCacheCapacity) (settled : g.Settled D) :
    (g.evictDown fuel).Settled D ∧ (g.evictDown fuel).depth = g.depth ∧ (g.evictDown fuel).count ≤ max g.depth (g.count - fuel) := by
  induction fuel generalizing g with
  | zero => exact ⟨settled,rfl,by simp [CommandGate.evictDown]⟩
  | succ fuel ih =>
      unfold CommandGate.evictDown
      split
      · have smaller : g.evictOldest.count = g.count - 1 := rfl
        obtain ⟨kept,depth,count⟩ := ih g.evictOldest (by omega) (evictOldest_settled room settled)
        refine ⟨kept,depth,count.trans ?_⟩
        change max g.depth _ ≤ _
        omega
      · exact ⟨settled,rfl,by omega⟩

theorem setCacheDepth_vouched (n : UInt8) (vouched : Vouched D g) : Vouched D (g.setCacheDepth n) := by
  unfold CommandGate.setCacheDepth
  dsimp only
  generalize chosen : (if n < 1 then 1 else if dedupCacheCapacity < n.toNat then dedupCacheCapacity else n.toNat) = depth
  have shallow : 1 ≤ depth ∧ depth ≤ dedupCacheCapacity := by
    rw [← chosen]
    split
    · decide
    · rename_i positive
      have positive : 1 ≤ n.toNat := UInt8.le_iff_toNat_le.mp (UInt8.not_lt.mp positive)
      split
      · decide
      · omega
  have room : g.count ≤ dedupCacheCapacity := vouched.within.trans vouched.shallow.2
  obtain ⟨settled,kept,count⟩ := evictDown_settled g.count {g with depth := depth} room vouched.settled
  refine ⟨kept ▸ shallow,?_,settled⟩
  rw [kept]
  exact count.trans (by simp)

theorem accept_vouched (seq : Seq) (vouched : Vouched D g) : Vouched D (g.accept seq) := by
  have room : g.count ≤ dedupCacheCapacity := vouched.within.trans vouched.shallow.2
  have push : ∀ h : CommandGate, h.depth = g.depth → h.count < g.depth → h.Settled D → Vouched D {h with
      entries := Function.update h.entries (h.slot h.count) {seq := seq}
      inFlight := Function.update h.inFlight (h.slot h.count) true
      count := h.count + 1} := by
    intro h depth free settled
    refine ⟨depth ▸ vouched.shallow,by change h.count + 1 ≤ h.depth; omega,?_⟩
    intro i inside quiet accepted
    change Function.update h.inFlight (h.slot h.count) true (h.slot i) = false at quiet
    by_cases new : h.slot i = h.slot h.count
    · rw [new,Function.update_self] at quiet
      cases quiet
    · have old : i < h.count := by
        have inside : i < h.count + 1 := inside
        by_contra last
        exact new (by rw [show i = h.count by omega])
      rw [Function.update_of_ne new] at quiet
      change (Function.update h.entries (h.slot h.count) _ (h.slot i)).result = _ at accepted
      change D (Function.update h.entries (h.slot h.count) _ (h.slot i)).seq
      rw [Function.update_of_ne new] at accepted ⊢
      exact settled i old quiet accepted
  have shallow := vouched.shallow
  have within := vouched.within
  unfold CommandGate.accept
  dsimp only
  split
  · exact push _ rfl (by change g.count - 1 < g.depth; omega) (evictOldest_settled room vouched.settled)
  · exact push _ rfl (by change g.count < g.depth; omega) vouched.settled

theorem check_vouched (seq : Seq) (vouched : Vouched D g) : Vouched D (g.check seq).2 := by
  rcases check_cases g seq with ⟨_,_,_,moved⟩ | ⟨_,same⟩ | ⟨_,same⟩ | ⟨_,_,same,_⟩
  · rw [moved]
    exact accept_vouched seq vouched
  all_goals
    rw [same]
    exact vouched

theorem record_vouched (seq : Seq) (result : AckResult) (detail : UInt8) (vouched : Vouched D g) (earned : result = .accepted → D seq) :
    Vouched D (g.record seq result detail).2 := by
  unfold CommandGate.record
  split
  · exact vouched
  · rename_i slot found
    split
    · exact vouched
    · refine ⟨vouched.shallow,vouched.within,?_⟩
      intro i inside quiet accepted
      obtain ⟨_,_,_,named⟩ := find_parts g seq slot found
      change Function.update g.inFlight slot false (g.slot i) = false at quiet
      change (Function.update g.entries slot _ (g.slot i)).result = _ at accepted
      change D (Function.update g.entries slot _ (g.slot i)).seq
      by_cases this : g.slot i = slot
      · rw [this,Function.update_self] at accepted ⊢
        rw [named]
        exact earned accepted
      · rw [Function.update_of_ne this] at quiet accepted ⊢
        exact vouched.settled i inside quiet accepted

theorem resetContext_vouched (ctx : CtxId) (vouched : Vouched D g) : Vouched E (g.resetContext ctx) :=
  ⟨vouched.shallow,Nat.zero_le _,fun i inside => absurd inside (Nat.not_lt_zero i)⟩

theorem Vouched.cached {seq : Seq} {slot : Nat} (vouched : Vouched D g) (found : g.find seq = some slot) (quiet : g.inFlight slot = false)
    (accepted : (g.entries slot).result = .accepted) : D seq := by
  obtain ⟨i,inside,rfl,named⟩ := find_parts g seq slot found
  exact named ▸ vouched.settled i inside quiet accepted

end LoraRan.Protocol
