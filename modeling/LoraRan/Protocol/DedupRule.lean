import LoraRan.Library.Ring
import LoraRan.Library.StepSystem
import LoraRan.Protocol.CommandGate
import Mathlib.Data.List.DropRight

namespace LoraRan.Protocol
open Library Library.Serial Library.StepSystem

-- The rule the gate is for: the newest accepted seqs of a context, each with the result it was answered with, or none yet.
structure Listed where
  seq : Seq
  result : Option (AckResult × UInt8)
  deriving DecidableEq

structure DedupRule where
  depth : Nat := defaultDedupCacheDepth
  listed : List Listed := []

-- Every context starts at zero.
def DedupRule.last (a : DedupRule) : Seq := (a.listed.getLast?.map Listed.seq).getD 0

def DedupRule.newest (a : DedupRule) : DedupRule := {a with listed := a.listed.rtake a.depth}

def DedupRule.check (a : DedupRule) (seq : Seq) : GateResult × DedupRule :=
  match a.listed.find? fun e => e.seq == seq with
  | some ⟨_,none⟩ => ({verdict := .inFlight,status := .duplicateInFlight},a)
  | some ⟨_,some (result,detail)⟩ =>
      ({verdict := .returnCached,status := .duplicateCached,cachedResult := result,cachedDetail := detail},a)
  | none =>
      if newer seq a.last then ({verdict := .execute,status := .ok},DedupRule.newest {a with listed := a.listed ++ [⟨seq,none⟩]})
      else ({verdict := .reject,status := .rejectedSeq},a)

def DedupRule.record (a : DedupRule) (seq : Seq) (result : AckResult) (detail : UInt8) : Bool × DedupRule :=
  if ⟨seq,none⟩ ∈ a.listed then (true,{a with listed := a.listed.map fun e => if e.seq = seq then ⟨seq,some (result,detail)⟩ else e})
  else (false,a)

def DedupRule.setCacheDepth (a : DedupRule) (n : UInt8) : DedupRule :=
  DedupRule.newest {a with depth := min (max n.toNat 1) dedupCacheCapacity}

def DedupRule.resetContext (a : DedupRule) : DedupRule := {a with listed := []}

def DedupRule.anyInFlight (a : DedupRule) : Bool := a.listed.any fun e => e.result.isNone

-- The calls on a gate within one context, and the call that opens another.
inductive GateCall where
  | check (seq : Seq)
  | record (seq : Seq) (result : AckResult) (detail : UInt8)
  | setCacheDepth (n : UInt8)

inductive GateOp where
  | call (c : GateCall)
  | resetContext (ctx : CtxId)

inductive GateAnswer where
  | judged (r : GateResult)
  | recorded (done : Bool)
  | silent
  deriving DecidableEq

def CommandGate.call (g : CommandGate) : GateCall → GateAnswer × CommandGate
  | .check seq => (.judged (g.check seq).1,(g.check seq).2)
  | .record seq result detail => (.recorded (g.record seq result detail).1,(g.record seq result detail).2)
  | .setCacheDepth n => (.silent,g.setCacheDepth n)

def CommandGate.respond (g : CommandGate) : GateOp → GateAnswer × CommandGate
  | .call c => g.call c
  | .resetContext ctx => (.silent,g.resetContext ctx)

def DedupRule.respond (a : DedupRule) : GateOp → GateAnswer × DedupRule
  | .call (.check seq) => (.judged (a.check seq).1,(a.check seq).2)
  | .call (.record seq result detail) => (.recorded (a.record seq result detail).1,(a.record seq result detail).2)
  | .call (.setCacheDepth n) => (.silent,a.setCacheDepth n)
  | .resetContext _ => (.silent,a.resetContext)

-- A slot as the rule lists it.
def CommandGate.cell (g : CommandGate) (s : Nat) : Listed :=
  ⟨(g.entries s).seq,if g.inFlight s then none else some ((g.entries s).result,(g.entries s).detail)⟩

def CommandGate.listed (g : CommandGate) : List Listed := Ring.contents dedupCacheCapacity g.head g.count g.cell

-- The ring stands for the rule's list: at most `depth` entries, the mark at the newest, and no bit left on a free slot.
structure Refines (g : CommandGate) (a : DedupRule) : Prop where
  depth : a.depth = g.depth
  listed : a.listed = g.listed
  shallow : 1 ≤ g.depth ∧ g.depth ≤ dedupCacheCapacity
  within : g.count ≤ g.depth
  placed : g.head < dedupCacheCapacity
  distinct : (a.listed.map Listed.seq).Nodup
  mark : g.highWater = a.last
  freed : ∀ s, g.inFlight s = true → ∃ i < g.count, s = g.slot i

variable {g : CommandGate} {a : DedupRule}

theorem Refines.room (refines : Refines g a) : g.count ≤ dedupCacheCapacity := refines.within.trans refines.shallow.2

@[simp] theorem listed_length (g : CommandGate) : g.listed.length = g.count := by
  simp [CommandGate.listed]

theorem getElem_listed (g : CommandGate) (i : Nat) (inside : i < g.listed.length) : g.listed[i] = g.cell (g.slot i) := by
  simp [CommandGate.listed,Ring.contents,Ring.slot,CommandGate.slot]

-- Where find() stops, the rule's search does too.
theorem find_listed (g : CommandGate) (seq : Seq) :
    (g.find seq = none ∧ g.listed.find? (fun e => e.seq == seq) = none) ∨
    (∃ i < g.count, g.find seq = some (g.slot i) ∧ (g.entries (g.slot i)).seq = seq ∧
      g.listed.find? (fun e => e.seq == seq) = some (g.cell (g.slot i))) := by
  have searched : g.listed.find? (fun e => e.seq == seq) =
      ((List.range g.count).find? fun i => (g.entries (g.slot i)).seq == seq).map fun i => g.cell (g.slot i) := by
    unfold CommandGate.listed Ring.contents
    rw [List.find?_map]
    rfl
  unfold CommandGate.find
  rw [searched]
  cases first : (List.range g.count).find? fun i => (g.entries (g.slot i)).seq == seq with
  | none => exact .inl ⟨rfl,rfl⟩
  | some i =>
      have matched := List.find?_some first
      have inside := List.mem_range.mp (List.mem_of_find?_eq_some first)
      exact .inr ⟨i,inside,rfl,by simpa using matched,rfl⟩

theorem evictOldest_listed (room : g.count ≤ dedupCacheCapacity) (placed : g.head < dedupCacheCapacity) :
    g.evictOldest.listed = g.listed.drop 1 := by
  refine Ring.contents_evict room ?_
  intro s other
  have elsewhere : s ≠ g.head := by
    rintro rfl
    exact other (Nat.mod_eq_of_lt placed).symm
  simp [CommandGate.cell,CommandGate.evictOldest,Function.update_of_ne elsewhere]

theorem evictOldest_freed (placed : g.head < dedupCacheCapacity) (freed : ∀ s, g.inFlight s = true → ∃ i < g.count, s = g.slot i) (s : Nat)
    (busy : g.evictOldest.inFlight s = true) : ∃ i < g.evictOldest.count, s = g.evictOldest.slot i := by
  have elsewhere : s ≠ g.head := by
    rintro rfl
    simp [CommandGate.evictOldest] at busy
  simp only [CommandGate.evictOldest,Function.update_of_ne elsewhere] at busy
  obtain ⟨i,inside,rfl⟩ := freed s busy
  cases i with
  | zero => exact absurd (Nat.mod_eq_of_lt placed) elsewhere
  | succ i =>
      refine ⟨i,?_,(evictOldest_slot g i).symm⟩
      change i < g.count - 1
      omega

-- What the eviction loop leaves: the newest entries, as many as the depth allows.
theorem evictDown_parts (fuel : Nat) (g : CommandGate) (enough : g.count ≤ g.depth + fuel) (room : g.count ≤ dedupCacheCapacity)
    (placed : g.head < dedupCacheCapacity) (freed : ∀ s, g.inFlight s = true → ∃ i < g.count, s = g.slot i) :
    (g.evictDown fuel).depth = g.depth ∧ (g.evictDown fuel).listed = g.listed.rtake g.depth ∧ (g.evictDown fuel).count ≤ g.depth ∧
    (g.evictDown fuel).head < dedupCacheCapacity ∧
    ∀ s, (g.evictDown fuel).inFlight s = true → ∃ i < (g.evictDown fuel).count, s = (g.evictDown fuel).slot i := by
  have whole : g.count ≤ g.depth → g.listed = g.listed.rtake g.depth := by
    intro short
    simp [List.rtake,listed_length,Nat.sub_eq_zero_of_le short]
  induction fuel generalizing g with
  | zero => exact ⟨rfl,whole (by omega),by change g.count ≤ g.depth; omega,placed,freed⟩
  | succ fuel ih =>
      unfold CommandGate.evictDown
      split
      · have shorter : g.evictOldest.count = g.count - 1 := rfl
        have same : g.evictOldest.depth = g.depth := rfl
        have cut := evictOldest_listed room placed
        have stillWhole : g.evictOldest.count ≤ g.evictOldest.depth → g.evictOldest.listed = g.evictOldest.listed.rtake g.evictOldest.depth := by
          intro short
          simp [List.rtake,listed_length,Nat.sub_eq_zero_of_le short]
        obtain ⟨depth,listed,count,head,bits⟩ := ih g.evictOldest (by omega) (by omega) (Nat.mod_lt _ (by decide))
          (evictOldest_freed placed freed) stillWhole
        refine ⟨depth,?_,count,head,bits⟩
        rw [listed,same,cut]
        simp only [List.rtake,List.length_drop,listed_length,List.drop_drop]
        congr 1
        omega
      · exact ⟨rfl,whole (by omega),by omega,placed,freed⟩

theorem rtake_last (entries : List Listed) (depth : Nat) (positive : 1 ≤ depth) : (entries.rtake depth).getLast? = entries.getLast? := by
  unfold List.rtake
  rw [List.getLast?_drop]
  split
  · rename_i none
    have empty : entries = [] := List.length_eq_zero_iff.mp (by omega)
    simp [empty]
  · rfl

theorem setCacheDepth_refines (n : UInt8) (refines : Refines g a) : Refines (g.setCacheDepth n) (a.setCacheDepth n) := by
  have clamped : (if n < 1 then 1 else if dedupCacheCapacity < n.toNat then dedupCacheCapacity else n.toNat) =
      min (max n.toNat 1) dedupCacheCapacity := by
    have below : n < 1 ↔ n.toNat < 1 := UInt8.lt_iff_toNat_lt
    have some : 1 ≤ dedupCacheCapacity := by decide
    split
    · rename_i zero
      have := below.mp zero
      omega
    · rename_i positive
      have : ¬ n.toNat < 1 := fun zero => positive (below.mpr zero)
      split <;> omega
  unfold CommandGate.setCacheDepth DedupRule.setCacheDepth DedupRule.newest
  dsimp only
  rw [clamped]
  generalize chosen : min (max n.toNat 1) dedupCacheCapacity = depth
  have shallow : 1 ≤ depth ∧ depth ≤ dedupCacheCapacity := by
    simp only [dedupCacheCapacity] at chosen ⊢
    omega
  obtain ⟨sameDepth,listed,count,head,bits⟩ := evictDown_parts g.count {g with depth := depth} (by simp) refines.room refines.placed refines.freed
  have cut : (CommandGate.evictDown {g with depth := depth} g.count).listed = a.listed.rtake depth := by
    rw [listed,refines.listed]
    rfl
  refine ⟨sameDepth.symm,cut.symm,sameDepth ▸ shallow,by rw [sameDepth]; exact count,head,?_,?_,bits⟩
  · exact refines.distinct.sublist ((List.drop_sublist _ _).map _)
  · rw [evictDown_highWater]
    change g.highWater = _
    rw [refines.mark]
    unfold DedupRule.last
    rw [rtake_last _ _ shallow.1]

-- The ring with one entry more, in flight.
def CommandGate.push (h : CommandGate) (seq : Seq) : CommandGate :=
  {h with
    entries := Function.update h.entries (h.slot h.count) {seq := seq}
    inFlight := Function.update h.inFlight (h.slot h.count) true
    count := h.count + 1}

theorem push_listed (h : CommandGate) (seq : Seq) (free : h.count < dedupCacheCapacity) : (h.push seq).listed = h.listed ++ [⟨seq,none⟩] := by
  have cells : (h.push seq).cell = Function.update h.cell (h.slot h.count) ⟨seq,none⟩ := by
    funext s
    by_cases here : s = h.slot h.count
    · subst here
      simp [CommandGate.cell,CommandGate.push]
    · simp [CommandGate.cell,CommandGate.push,Function.update_of_ne here]
  unfold CommandGate.listed
  rw [cells]
  exact Ring.contents_push free _

theorem push_freed (h : CommandGate) (seq : Seq) (freed : ∀ s, h.inFlight s = true → ∃ i < h.count, s = h.slot i) (s : Nat)
    (busy : (h.push seq).inFlight s = true) : ∃ i < (h.push seq).count, s = (h.push seq).slot i := by
  by_cases here : s = h.slot h.count
  · exact ⟨h.count,Nat.lt_succ_self _,here⟩
  · simp only [CommandGate.push,Function.update_of_ne here] at busy
    obtain ⟨i,inside,same⟩ := freed s busy
    exact ⟨i,Nat.lt_succ_of_lt inside,same⟩

-- The ring made ready for one more: full, it gives its oldest entry up.
def CommandGate.ready (g : CommandGate) (seq : Seq) : CommandGate :=
  if g.count = g.depth then CommandGate.evictOldest {g with highWater := seq} else {g with highWater := seq}

theorem accept_eq (g : CommandGate) (seq : Seq) : g.accept seq = (g.ready seq).push seq := rfl

theorem ready_parts (seq : Seq) (refines : Refines g a) :
    (g.ready seq).depth = g.depth ∧ (g.ready seq).highWater = seq ∧ (g.ready seq).listed = a.listed.rtake (g.depth - 1) ∧
    (g.ready seq).count < g.depth ∧ (g.ready seq).head < dedupCacheCapacity ∧
    ∀ s, (g.ready seq).inFlight s = true → ∃ i < (g.ready seq).count, s = (g.ready seq).slot i := by
  have shallow := refines.shallow
  have within := refines.within
  have length : a.listed.length = g.count := by rw [refines.listed,listed_length]
  unfold CommandGate.ready
  split
  · rename_i full
    have cut : (CommandGate.evictOldest {g with highWater := seq}).listed = g.listed.drop 1 :=
      evictOldest_listed refines.room refines.placed
    refine ⟨rfl,rfl,?_,?_,Nat.mod_lt _ (by decide),evictOldest_freed refines.placed refines.freed⟩
    · rw [cut,refines.listed,List.rtake,listed_length]
      congr 1
      omega
    · change g.count - 1 < g.depth
      omega
  · rename_i spare
    refine ⟨rfl,rfl,?_,by change g.count < g.depth; omega,refines.placed,refines.freed⟩
    change g.listed = _
    rw [← refines.listed,List.rtake,length,Nat.sub_eq_zero_of_le (by omega),List.drop_zero]

-- One acceptance: the newest of the list with the seq at its end.
theorem accept_refines (seq : Seq) (refines : Refines g a) (fresh : ∀ e ∈ a.listed, e.seq ≠ seq) :
    Refines (g.accept seq) (DedupRule.newest {a with listed := a.listed ++ [⟨seq,none⟩]}) := by
  obtain ⟨depth,mark,listed,free,head,freed⟩ := ready_parts seq refines
  have shallow := refines.shallow
  have kept : (a.listed ++ [(⟨seq,none⟩ : Listed)]).rtake a.depth = a.listed.rtake (g.depth - 1) ++ [⟨seq,none⟩] := by
    rw [refines.depth,show g.depth = g.depth - 1 + 1 by omega,List.rtake_concat_succ]
    simp
  unfold DedupRule.newest
  dsimp only
  rw [accept_eq,kept]
  refine ⟨refines.depth.trans depth.symm,?_,?_,?_,head,?_,?_,push_freed _ seq freed⟩
  · rw [push_listed _ _ (by omega),listed]
  · change 1 ≤ (g.ready seq).depth ∧ (g.ready seq).depth ≤ _
    rw [depth]
    exact shallow
  · change (g.ready seq).count + 1 ≤ (g.ready seq).depth
    omega
  · dsimp only
    rw [List.map_append,List.map_cons,List.map_nil]
    refine List.Nodup.append (refines.distinct.sublist ((List.drop_sublist _ _).map _)) (List.nodup_singleton _) ?_
    intro other old new
    obtain ⟨e,member,rfl⟩ := List.mem_map.mp old
    exact fresh e (List.mem_of_mem_drop member) (List.mem_singleton.mp new)
  · change (g.ready seq).highWater = _
    rw [mark]
    simp [DedupRule.last]

theorem check_refines (seq : Seq) (refines : Refines g a) :
    (g.check seq).1 = (a.check seq).1 ∧ Refines (g.check seq).2 (a.check seq).2 := by
  unfold CommandGate.check DedupRule.check
  rw [refines.listed]
  rcases find_listed g seq with ⟨missing,absent⟩ | ⟨i,_,found,_,present⟩
  · rw [missing,absent,← refines.mark]
    have fresh : ∀ e ∈ a.listed, e.seq ≠ seq := by
      rw [refines.listed]
      intro e member same
      have never := List.find?_eq_none.mp absent e member
      exact never (by simp [same])
    cases ahead : newer seq g.highWater with
    | false => exact ⟨rfl,refines⟩
    | true =>
        refine ⟨rfl,?_⟩
        have accepted := accept_refines seq refines fresh
        rwa [refines.listed] at accepted
  · rw [found,present]
    dsimp only [CommandGate.cell]
    cases busy : g.inFlight (g.slot i) with
    | true =>
        simp only [if_true]
        exact ⟨trivial,refines⟩
    | false =>
        simp only [Bool.false_eq_true,if_false]
        exact ⟨trivial,refines⟩

theorem record_refines (seq : Seq) (result : AckResult) (detail : UInt8) (refines : Refines g a) :
    (g.record seq result detail).1 = (a.record seq result detail).1 ∧ Refines (g.record seq result detail).2 (a.record seq result detail).2 := by
  have distinct := refines.distinct
  rw [refines.listed] at distinct
  unfold CommandGate.record DedupRule.record
  rcases find_listed g seq with ⟨missing,absent⟩ | ⟨i,inside,found,named,present⟩
  · have unlisted : ¬ ⟨seq,none⟩ ∈ a.listed := by
      rw [refines.listed]
      intro member
      exact List.find?_eq_none.mp absent _ member (by simp)
    rw [missing,if_neg unlisted]
    exact ⟨rfl,refines⟩
  · rw [found]
    dsimp only
    have here : i < g.listed.length := by rw [listed_length]; exact inside
    have entry : g.listed[i] = g.cell (g.slot i) := getElem_listed g i here
    -- The entry find() stops at is the only one of its seq.
    have only : ∀ j (small : j < g.listed.length), (g.listed[j]).seq = seq → j = i := by
      intro j small same
      have smallMap : j < (g.listed.map Listed.seq).length := by simpa using small
      have hereMap : i < (g.listed.map Listed.seq).length := by simpa using here
      have equal : (g.listed.map Listed.seq)[j] = (g.listed.map Listed.seq)[i] := by
        rw [List.getElem_map,List.getElem_map,same,entry]
        exact named.symm
      exact (List.Nodup.getElem_inj_iff distinct).mp equal
    cases busy : g.inFlight (g.slot i) with
    | false =>
        have unlisted : ¬ ⟨seq,none⟩ ∈ a.listed := by
          rw [refines.listed]
          intro member
          obtain ⟨j,small,same⟩ := List.getElem_of_mem member
          obtain rfl := only j small (by rw [same])
          rw [entry,CommandGate.cell,busy] at same
          cases same
        rw [if_neg unlisted]
        exact ⟨rfl,refines⟩
    | true =>
        have present : ⟨seq,none⟩ ∈ a.listed := by
          rw [refines.listed]
          have same : g.listed[i] = ⟨seq,none⟩ := by rw [entry,CommandGate.cell,busy,named]; rfl
          exact same ▸ List.getElem_mem here
        rw [if_pos present]
        refine ⟨rfl,?_⟩
        let done : CommandGate := {g with
          entries := Function.update g.entries (g.slot i) {g.entries (g.slot i) with result := result,detail := detail}
          inFlight := Function.update g.inFlight (g.slot i) false}
        have cells : done.cell = Function.update g.cell (g.slot i) ⟨seq,some (result,detail)⟩ := by
          funext s
          by_cases this : s = g.slot i
          · subst this
            simp [CommandGate.cell,done,named]
          · simp [CommandGate.cell,done,Function.update_of_ne this]
        have listed : done.listed = g.listed.map fun e => if e.seq = seq then ⟨seq,some (result,detail)⟩ else e := by
          have set : done.listed = g.listed.set i ⟨seq,some (result,detail)⟩ := by
            change Ring.contents dedupCacheCapacity g.head g.count done.cell = _
            rw [cells]
            exact Ring.contents_set refines.room inside _
          rw [set]
          apply List.ext_getElem
          · simp
          · intro j small _
            rw [List.length_set] at small
            rw [List.getElem_set,List.getElem_map]
            by_cases this : i = j
            · subst this
              rw [if_pos rfl,if_pos (by rw [entry]; exact named)]
            · rw [if_neg this,if_neg fun same => this (only j small same).symm]
        refine ⟨refines.depth,by rw [refines.listed]; exact listed.symm,refines.shallow,refines.within,refines.placed,?_,?_,?_⟩
        · dsimp only
          rw [List.map_map]
          have same : Listed.seq ∘ (fun e : Listed => if e.seq = seq then ⟨seq,some (result,detail)⟩ else e) = Listed.seq := by
            funext e
            by_cases this : e.seq = seq
            · simp [this]
            · simp [this]
          rw [same]
          exact refines.distinct
        · change g.highWater = _
          rw [refines.mark,DedupRule.last,DedupRule.last,List.getLast?_map]
          cases a.listed.getLast? with
          | none => rfl
          | some e =>
              by_cases this : e.seq = seq
              · simp [this]
              · simp [this]
        · intro s busy
          by_cases this : s = g.slot i
          · exact ⟨i,inside,this⟩
          · have busy : Function.update g.inFlight (g.slot i) false s = true := busy
            rw [Function.update_of_ne this] at busy
            exact refines.freed s busy

theorem resetContext_refines (ctx : CtxId) (refines : Refines g a) : Refines (g.resetContext ctx) a.resetContext := by
  refine ⟨refines.depth,rfl,refines.shallow,Nat.zero_le _,Nat.zero_lt_succ _,List.nodup_nil,rfl,?_⟩
  intro s busy
  cases busy

theorem respond_refines (g : CommandGate) (a : DedupRule) (op : GateOp) (refines : Refines g a) :
    (g.respond op).1 = (a.respond op).1 ∧ Refines (g.respond op).2 (a.respond op).2 := by
  cases op with
  | call c =>
      cases c with
      | check seq =>
          obtain ⟨same,next⟩ := check_refines seq refines
          exact ⟨congrArg GateAnswer.judged same,next⟩
      | record seq result detail =>
          obtain ⟨same,next⟩ := record_refines seq result detail refines
          exact ⟨congrArg GateAnswer.recorded same,next⟩
      | setCacheDepth n => exact ⟨rfl,setCacheDepth_refines n refines⟩
  | resetContext ctx => exact ⟨rfl,resetContext_refines ctx refines⟩

theorem fresh_refines : Refines {} {} :=
  ⟨rfl,rfl,by decide,by decide,by decide,List.nodup_nil,rfl,fun _ busy => Bool.noConfusion busy⟩

-- A bit of the mask is the bit of some listed entry.
theorem anyInFlight_refines (refines : Refines g a) : g.anyInFlight = a.anyInFlight := by
  rw [Bool.eq_iff_iff,CommandGate.anyInFlight,DedupRule.anyInFlight,List.any_eq_true,List.any_eq_true,refines.listed]
  refine ⟨?_,?_⟩
  · rintro ⟨s,_,busy⟩
    obtain ⟨i,inside,rfl⟩ := refines.freed s busy
    have here : i < g.listed.length := by rw [listed_length]; exact inside
    refine ⟨g.listed[i],List.getElem_mem here,?_⟩
    simp [getElem_listed,CommandGate.cell,busy]
  · rintro ⟨e,member,open'⟩
    obtain ⟨i,here,rfl⟩ := List.getElem_of_mem member
    refine ⟨g.slot i,List.mem_range.mpr (Nat.mod_lt _ (by decide)),?_⟩
    rw [getElem_listed] at open'
    cases busy : g.inFlight (g.slot i) with
    | true => rfl
    | false => simp [CommandGate.cell,busy] at open'

-- Whatever is asked of a fresh gate, it answers as the rule does and lists what the rule lists.
theorem gate_answers_by_the_rule (ops : List GateOp) :
    let g := answers CommandGate.respond {} ops
    let a := answers DedupRule.respond {} ops
    g.1 = a.1 ∧ g.2.listed = a.2.listed ∧ g.2.anyInFlight = a.2.anyInFlight ∧ (g.2.listed.map Listed.seq).Nodup ∧
    g.2.count ≤ g.2.depth ∧ ∀ s, g.2.inFlight s = true → ∃ i < g.2.count, s = g.2.slot i := by
  obtain ⟨same,refines⟩ := answers_agree Refines respond_refines ops {} {} fresh_refines
  exact ⟨same,refines.listed.symm,anyInFlight_refines refines,refines.listed ▸ refines.distinct,refines.within,refines.freed⟩

-- An Execute verdict: how far it moved the mark, and how far the mark has come with it.
structure Execution where
  seq : Seq
  advanced : Nat
  total : Nat
  deriving DecidableEq

def CommandGate.executions (g : CommandGate) (total : Nat) : List GateCall → List Execution
  | [] => []
  | .check seq :: rest =>
      if (g.check seq).1.verdict = .execute then
        ⟨seq,advance seq g.highWater,total + advance seq g.highWater⟩ ::
          (g.check seq).2.executions (total + advance seq g.highWater) rest
      else (g.check seq).2.executions total rest
  | .record seq result detail :: rest => (g.record seq result detail).2.executions total rest
  | .setCacheDepth n :: rest => (g.setCacheDepth n).executions total rest

-- Each stands where the mark was, and as much further as it has come since.
theorem executions_position (calls : List GateCall) (g : CommandGate) (total : Nat) (e : Execution) (member : e ∈ g.executions total calls) :
    total < e.total ∧ e.seq.toNat = (g.highWater.toNat + (e.total - total)) % 65536 ∧ 1 ≤ e.advanced ∧ e.advanced ≤ 32767 := by
  induction calls generalizing g total with
  | nil => cases member
  | cons call rest ih =>
      cases call with
      | check seq =>
          unfold CommandGate.executions at member
          split at member
          · rename_i executes
            rcases check_cases g seq with ⟨_,ahead,_,accepted⟩ | ⟨other,_⟩ | ⟨other,_⟩ | ⟨_,other,_⟩
            · obtain ⟨positive,short⟩ := newer_advance _ _ ahead
              have here := position g.highWater seq g.highWater.toNat (Nat.mod_eq_of_lt g.highWater.toNat_lt).symm
              rcases List.mem_cons.mp member with rfl | later
              · refine ⟨by dsimp only; omega,?_,positive,by dsimp only; omega⟩
                dsimp only
                rw [here]
                congr 1
                omega
              · obtain ⟨further,stands,bounds⟩ := ih _ _ later
                rw [accepted,accept_highWater] at stands
                refine ⟨by omega,?_,bounds⟩
                rw [stands,here]
                omega
            all_goals exact absurd (executes.symm.trans other) (by decide)
          · rename_i refused
            have same : (g.check seq).2 = g := by
              rcases check_cases g seq with ⟨executes,_⟩ | ⟨_,same⟩ | ⟨_,same⟩ | ⟨_,_,same,_⟩
              · exact absurd executes refused
              all_goals exact same
            rw [same] at member
            exact ih _ _ member
      | record seq result detail =>
          obtain ⟨further,stands,bounds⟩ := ih _ _ member
          rw [record_highWater] at stands
          exact ⟨further,stands,bounds⟩
      | setCacheDepth n =>
          obtain ⟨further,stands,bounds⟩ := ih _ _ member
          rw [setCacheDepth_highWater] at stands
          exact ⟨further,stands,bounds⟩

theorem executions_apart (calls : List GateCall) (g : CommandGate) (total : Nat) :
    (g.executions total calls).Pairwise fun e later => e.seq = later.seq → ∃ turns, 0 < turns ∧ later.total = e.total + 65536 * turns := by
  induction calls generalizing g total with
  | nil => exact List.Pairwise.nil
  | cons call rest ih =>
      cases call with
      | check seq =>
          unfold CommandGate.executions
          split
          · rename_i executes
            refine List.pairwise_cons.mpr ⟨?_,ih _ _⟩
            intro later member same
            obtain ⟨further,stands,_⟩ := executions_position rest _ _ later member
            rcases check_cases g seq with ⟨_,_,_,accepted⟩ | ⟨other,_⟩ | ⟨other,_⟩ | ⟨_,other,_⟩
            · rw [accepted,accept_highWater,← same] at stands
              have bound := seq.toNat_lt
              refine ⟨(later.total - (total + advance seq g.highWater)) / 65536,?_,?_⟩
              · dsimp only at *
                omega
              · dsimp only at *
                omega
            all_goals exact absurd (executes.symm.trans other) (by decide)
          · exact ih _ _
      | record seq result detail => exact ih _ _
      | setCacheDepth n => exact ih _ _

-- Within a context no seq is executed again until the mark has come full circle, whatever was evicted in between.
theorem executed_again_after_a_full_turn (g : CommandGate) (calls : List GateCall) :
    (∀ e ∈ g.executions 0 calls, 1 ≤ e.advanced ∧ e.advanced ≤ 32767) ∧
    (g.executions 0 calls).Pairwise fun e later => e.seq = later.seq → ∃ turns, 0 < turns ∧ later.total = e.total + 65536 * turns :=
  ⟨fun e member => (executions_position calls g 0 e member).2.2,executions_apart calls g 0⟩

end LoraRan.Protocol
