import Mathlib.Data.List.DropRight
import LoraRan.Config.Readback
import LoraRan.Library.GreedyCut
import LoraRan.Node.SendWhole
import LoraRan.Protocol.ConfigCodec

namespace LoraRan.Node
open Protocol Config Library.GreedyCut

-- A result in its array of four bytes.
structure Sized (e : ConfigAckEntry) : Prop where
  short : e.len.toNat ≤ maxParamValueLen
  array : e.value.length = maxParamValueLen

def resultCost (e : ConfigAckEntry) : Nat := configAckEntryHdrLen + e.len.toNat

-- The results one message holds.
abbrev FitsMessage : List ConfigAckEntry → Prop := Holds resultCost maxConfigAckEntries (maxSchemaPayload - configAckHdrLen)

theorem fillMessage_longest (results : List ConfigAckEntry) (used count : Nat) (few : count ≤ maxConfigAckEntries) (small : used ≤ maxSchemaPayload) :
    Longest (Holds resultCost (maxConfigAckEntries - count) (maxSchemaPayload - used)) results (fillMessage results used count) := by
  induction results generalizing used count with
  | nil => exact longest_nil resultCost _ _
  | cons e rest ih =>
      unfold fillMessage
      split
      case isTrue fits =>
        obtain ⟨room,short⟩ := fits
        have later := longest_cons resultCost e (ih (used + configAckEntryHdrLen + e.len.toNat) (count + 1) room short)
        have most : maxConfigAckEntries - (count + 1) + 1 = maxConfigAckEntries - count := by omega
        have budget : resultCost e + (maxSchemaPayload - (used + configAckEntryHdrLen + e.len.toNat)) = maxSchemaPayload - used := by
          unfold resultCost
          omega
        rw [most,budget] at later
        rw [Nat.add_comm 1]
        exact later
      case isFalse full =>
        refine longest_stop resultCost rest ?_
        unfold resultCost
        omega

theorem cutMessages_cut (limit : Nat) (results : List ConfigAckEntry) : Cut FitsMessage (limit + 1) results (cutMessages (limit + 1) results) := by
  induction limit generalizing results with
  | zero =>
      have longest := fillMessage_longest results configAckHdrLen 0 (Nat.zero_le _) (by decide)
      have cut := Cut.last 0 results _ longest (.inr rfl)
      unfold cutMessages
      dsimp only
      split
      · exact cut
      · exact cut
  | succ limit ih =>
      have longest := fillMessage_longest results configAckHdrLen 0 (Nat.zero_le _) (by decide)
      unfold cutMessages
      dsimp only
      split
      case isTrue whole => exact .last (limit + 1) results _ longest (.inl whole)
      case isFalse left_ => exact .more (limit + 1) results _ _ longest (ih (results.drop (fillMessage results configAckHdrLen 0)))

-- The messages of an answer, each with what it repeats of the answer and the mark of those that another follows.
def ConfigAnswer.acks (answer : ConfigAnswer) : List (List ConfigAckEntry) → List NodeConfigAckV1
  | [] => []
  | entries :: rest =>
      {op := answer.op,moreFollows := !rest.isEmpty,persistStatus := answer.persistStatus.code,entries := entries} :: answer.acks rest

def ConfigAnswer.limit (answer : ConfigAnswer) : Nat := if answer.op ≠ configOpSet then maxConfigAckMessages else 1

def ConfigAnswer.messages (answer : ConfigAnswer) : List NodeConfigAckV1 := answer.acks (cutMessages answer.limit answer.results)

theorem acks_length (answer : ConfigAnswer) (parts : List (List ConfigAckEntry)) : (answer.acks parts).length = parts.length := by
  induction parts with
  | nil => rfl
  | cons entries rest ih =>
      rw [ConfigAnswer.acks,List.length_cons,List.length_cons,ih]

theorem acks_entries (answer : ConfigAnswer) (parts : List (List ConfigAckEntry)) :
    (answer.acks parts).map (fun ack => ack.entries) = parts := by
  induction parts with
  | nil => rfl
  | cons entries rest ih =>
      rw [ConfigAnswer.acks,List.map_cons,ih]

theorem acks_marked (answer : ConfigAnswer) (parts : List (List ConfigAckEntry)) (i : Nat) (ack : NodeConfigAckV1)
    (at_ : (answer.acks parts)[i]? = some ack) :
    ack.moreFollows = decide (i + 1 < parts.length) ∧ ack.op = answer.op ∧ ack.persistStatus = answer.persistStatus.code := by
  induction parts generalizing i with
  | nil => cases at_
  | cons entries rest ih =>
      cases i with
      | zero =>
          rw [ConfigAnswer.acks,List.getElem?_cons_zero] at at_
          cases at_
          refine ⟨?_,rfl,rfl⟩
          cases rest with
          | nil => rfl
          | cons first rest =>
              rw [List.length_cons,List.length_cons]
              exact (decide_eq_true (by omega)).symm
      | succ i =>
          rw [ConfigAnswer.acks,List.getElem?_cons_succ] at at_
          obtain ⟨marked,repeats⟩ := ih i at_
          refine ⟨?_,repeats⟩
          rw [marked,List.length_cons]
          exact decide_eq_decide.mpr (by omega)

theorem costs_length (entries : List ConfigAckEntry) (sized : ∀ e ∈ entries, Sized e) :
    (entries.flatMap ConfigAckEntry.serialize).length = (entries.map resultCost).sum := by
  induction entries with
  | nil => rfl
  | cons e rest ih =>
      have one := sized e List.mem_cons_self
      rw [List.flatMap_cons,List.length_append,List.map_cons,List.sum_cons,ih fun o later => sized o (List.mem_cons_of_mem e later),
        (ackSerialize_framed e one.array one.short).sized]
      rfl

theorem serialize_writes (ack : NodeConfigAckV1) (few : ack.entries.length ≤ maxConfigAckEntries)
    (small : ∀ e ∈ ack.entries, e.len.toNat ≤ maxParamValueLen) (payload : Bytes)
    (is : payload = [ack.op,ack.persistStatus,UInt8.ofNat ack.entries.length ||| (if ack.moreFollows then configAckMoreFollows else 0)] ++
      ack.entries.flatMap ConfigAckEntry.serialize) (short : payload.length ≤ maxSchemaPayload) : ack.serialize = some payload := by
  have sound : ¬(maxConfigAckEntries < ack.entries.length ∨ ack.entries.any (fun e => decide (maxParamValueLen < e.len.toNat)) = true) := by
    rintro (many | long)
    · omega
    · exact (long_iff ack.entries (fun e => e.len)).mpr small long
  unfold NodeConfigAckV1.serialize
  rw [if_neg sound,← is]
  dsimp only
  rw [if_neg (Nat.not_lt.mpr short)]

-- A message that holds its results is a payload the codec takes.
theorem message_serializes (ack : NodeConfigAckV1) (fits : FitsMessage ack.entries) (sized : ∀ e ∈ ack.entries, Sized e) :
    ∃ payload, ack.serialize = some payload ∧ payload.length ≤ maxSchemaPayload ∧ checkVariablePayload .configAck payload = .ok := by
  obtain ⟨few,cheap⟩ := fits
  obtain ⟨payload,is⟩ : ∃ payload, payload =
    [ack.op,ack.persistStatus,UInt8.ofNat ack.entries.length ||| (if ack.moreFollows then configAckMoreFollows else 0)] ++
      ack.entries.flatMap ConfigAckEntry.serialize := ⟨_,rfl⟩
  have short : payload.length ≤ maxSchemaPayload := by
    rw [is,List.length_append,costs_length ack.entries sized]
    have head : configAckHdrLen = 3 := rfl
    change 3 + _ ≤ _
    have most : maxSchemaPayload = 196 := rfl
    omega
  have written : ack.serializeTo maxSchemaPayload = .ok payload :=
    (configAck_writes ack maxSchemaPayload payload).mpr ⟨few,fun e inside => (sized e inside).short,is,short,short⟩
  have read := configAck_trip ⟨ack,fun e inside => (sized e inside).array⟩ maxSchemaPayload payload written
  refine ⟨payload,serialize_writes ack few (fun e inside => (sized e inside).short) payload is short,short,?_⟩
  exact ((configAck_agrees payload).mp (by rw [read]; rfl)).1

theorem ack_encodes (mac : Mac) (c : Context) (dst : NodeId) (seq : Seq) (payload : Bytes) (short : payload.length ≤ maxSchemaPayload)
    (checked : checkVariablePayload .configAck payload = .ok) :
    ∃ frame, encode (c.header .configAck dst schemaNodeConfigV1 seq) payload {mac := some mac,nodeKey := some c.key} maxFrame = .ok frame := by
  have total : 16 + payload.length + 0 + 2 ≤ 222 := by
    change payload.length ≤ 196 at short
    omega
  have plain : frameHasMac .configAck payload = false := rfl
  have whole : frameLen payload.length (frameHasMac .configAck payload) ≠ 0 := by
    rw [frameLen_pos_iff,plain,if_neg Bool.false_ne_true]
    exact total
  have single : (c.header .configAck dst schemaNodeConfigV1 seq).fragTotal = 1 := by
    change (0x01 : UInt8) &&& 0x0F = 1
    decide
  have first : (c.header .configAck dst schemaNodeConfigV1 seq).fragIndex = 0 := by
    change (0x01 : UInt8) >>> 4 = 0
    decide
  have sized : checkPayloadLen (c.header .configAck dst schemaNodeConfigV1 seq) payload = .ok := by
    unfold checkPayloadLen
    rw [single,if_neg (by decide)]
    exact checked
  have admitted : Admissible (c.header .configAck dst schemaNodeConfigV1 seq) payload :=
    ⟨rfl,by rw [single]; decide,by rw [single,first]; decide,fun _ => rfl,rfl,sized,whole⟩
  have room : frameLen payload.length (frameHasMac .configAck payload) ≤ maxFrame := by
    rw [frameLen_eq _ _ whole,plain]
    exact total
  exact ⟨_,encode_of_parts _ _ _ _ _ admitted room rfl⟩

section
variable {σ : Type} (mac : Mac)

-- A frame of the node's that carries a message to a peer.
def Carries (c : Context) (dst : NodeId) (ack : NodeConfigAckV1) (frame : Bytes) : Prop :=
  ∃ seq payload, ack.serialize = some payload ∧
    encode (c.header .configAck dst schemaNodeConfigV1 seq) payload {mac := some mac,nodeKey := some c.key} maxFrame = .ok frame

-- What a queued message leaves of a node as the next one finds it.
structure Queues (n m : Engine σ) (frames : List Bytes) : Prop where
  outbox : m.outbox = n.outbox ++ frames
  key : m.ctx.key = n.ctx.key
  header : m.ctx.header = n.ctx.header

theorem sendConfigAck_queues (n : Engine σ) (dst : NodeId) (ack : NodeConfigAckV1) (replySeq : Option Seq) (fits : FitsMessage ack.entries)
    (sized : ∀ e ∈ ack.entries, Sized e) (free : 1 ≤ n.freeSlots) :
    ∃ frame, (n.sendConfigAck mac dst ack replySeq).1 = true ∧ Queues n (n.sendConfigAck mac dst ack replySeq).2 [frame] ∧
      Carries mac n.ctx dst ack frame := by
  obtain ⟨payload,written,short,checked⟩ := message_serializes ack fits sized
  obtain ⟨frame,encoded⟩ := ack_encodes mac n.ctx dst (replySeq.getD n.ctx.txSeq) payload short checked
  have drawn : ∃ m : Engine σ, m = (if replySeq.isNone then n.takeTxSeq else n) ∧ Queues n m [] := by
    refine ⟨_,rfl,?_⟩
    split
    · exact ⟨(List.append_nil _).symm,rfl,rfl⟩
    · exact ⟨(List.append_nil _).symm,rfl,rfl⟩
  obtain ⟨m,is,same⟩ := drawn
  have free_ : 1 ≤ m.freeSlots := by
    rw [Engine.freeSlots,same.outbox,List.append_nil]
    exact free
  rw [← same.key] at encoded
  have sent : m.send mac (n.ctx.header .configAck dst schemaNodeConfigV1 (replySeq.getD n.ctx.txSeq)) payload 0 = (true,m.queue [frame]) := by
    unfold Engine.send
    rw [if_pos (.inl rfl),if_neg (by omega),encoded]
    dsimp only
    rw [push_queues m frame free_ (encode_length _ _ _ _ _ encoded)]
  unfold Engine.sendConfigAck
  rw [written]
  dsimp only
  rw [← is,sent]
  refine ⟨frame,rfl,⟨?_,same.key,same.header⟩,replySeq.getD n.ctx.txSeq,payload,written,?_⟩
  · change m.outbox ++ [frame] = _
    rw [same.outbox,List.append_nil]
  · rw [← same.key]
    exact encoded

theorem sendMessages_queues (n : Engine σ) (dst : NodeId) (answer : ConfigAnswer) (replySeq : Option Seq) (parts : List (List ConfigAckEntry))
    (fits : ∀ part ∈ parts, FitsMessage part) (sized : ∀ part ∈ parts, ∀ e ∈ part, Sized e) (free : parts.length ≤ n.freeSlots) :
    ∃ frames, (n.sendMessages mac dst answer replySeq parts).1 = true ∧ (n.sendMessages mac dst answer replySeq parts).2.outbox = n.outbox ++ frames ∧
      List.Forall₂ (Carries mac n.ctx dst) (answer.acks parts) frames := by
  induction parts generalizing n with
  | nil => exact ⟨[],rfl,(List.append_nil _).symm,.nil⟩
  | cons entries rest ih =>
      rw [List.length_cons] at free
      obtain ⟨frame,sent,queues,carries⟩ := sendConfigAck_queues mac n dst
        {op := answer.op,moreFollows := !rest.isEmpty,persistStatus := answer.persistStatus.code,entries := entries} replySeq
        (fits entries List.mem_cons_self) (sized entries List.mem_cons_self) (by omega)
      obtain ⟨m,is⟩ : ∃ m, m = n.sendConfigAck mac dst
        {op := answer.op,moreFollows := !rest.isEmpty,persistStatus := answer.persistStatus.code,entries := entries} replySeq := ⟨_,rfl⟩
      rw [← is] at sent queues
      have free_ : rest.length ≤ m.2.freeSlots := by
        rw [Engine.freeSlots,queues.outbox,List.length_append,List.length_singleton]
        unfold Engine.freeSlots at free
        omega
      obtain ⟨frames,rest_sent,outbox,each⟩ := ih m.2 (fun part later => fits part (List.mem_cons_of_mem entries later))
        (fun part later => sized part (List.mem_cons_of_mem entries later)) free_
      unfold Engine.sendMessages
      dsimp only
      rw [← is,if_pos sent]
      refine ⟨frame :: frames,rest_sent,?_,.cons carries ?_⟩
      · rw [outbox,queues.outbox,List.append_assoc]
        rfl
      · refine each.imp fun ack frame carried => ?_
        unfold Carries at carried ⊢
        rw [queues.key,queues.header] at carried
        exact carried

end

-- The engine's insertion: what is larger moves up one place.

theorem insertion_perm (sorted : List ConfigAckEntry) (e : ConfigAckEntry) (larger : ConfigAckEntry → Bool) :
    (sorted.rdropWhile larger ++ e :: sorted.rtakeWhile larger).Perm (e :: sorted) := by
  have whole := List.rdropWhile_append_rtakeWhile (p := larger) (l := sorted)
  have moved : (sorted.rdropWhile larger ++ e :: sorted.rtakeWhile larger).Perm (e :: (sorted.rdropWhile larger ++ sorted.rtakeWhile larger)) :=
    List.perm_middle
  rwa [whole] at moved

theorem insertion_sorted (sorted : List ConfigAckEntry) (e : ConfigAckEntry) (ordered : sorted.Pairwise fun a b => a.paramId ≤ b.paramId) :
    (sorted.rdropWhile (fun r => decide (e.paramId < r.paramId)) ++ e :: sorted.rtakeWhile fun r => decide (e.paramId < r.paramId)).Pairwise
      fun a b => a.paramId ≤ b.paramId := by
  induction sorted using List.reverseRecOn with
  | nil => exact List.pairwise_singleton _ _
  | append_singleton front last ih =>
      obtain ⟨before,_,below⟩ := List.pairwise_append.mp ordered
      by_cases larger : decide (e.paramId < last.paramId) = true
      · rw [List.rdropWhile_concat_pos (fun r => decide (e.paramId < r.paramId)) front last larger,
          List.rtakeWhile_concat_pos (fun r => decide (e.paramId < r.paramId)) front last larger,← List.cons_append,← List.append_assoc]
        refine List.pairwise_append.mpr ⟨ih before,List.pairwise_singleton _ _,?_⟩
        intro a inside b is
        rw [List.mem_singleton.mp is]
        have member := (insertion_perm front e fun r => decide (e.paramId < r.paramId)).mem_iff.mp inside
        rcases List.mem_cons.mp member with rfl | earlier
        · exact UInt16.le_of_lt (of_decide_eq_true larger)
        · exact below a earlier last (List.mem_singleton_self last)
      · rw [List.rdropWhile_concat_neg (fun r => decide (e.paramId < r.paramId)) front last larger,
          List.rtakeWhile_concat_neg (fun r => decide (e.paramId < r.paramId)) front last larger]
        refine List.pairwise_append.mpr ⟨ordered,List.pairwise_singleton _ _,?_⟩
        intro a inside b is
        rw [List.mem_singleton.mp is]
        have last_le : last.paramId ≤ e.paramId := UInt16.not_lt.mp fun more => larger (decide_eq_true more)
        rcases List.mem_append.mp inside with earlier | same
        · exact UInt16.le_trans (below a earlier last (List.mem_singleton_self last)) last_le
        · rw [List.mem_singleton.mp same]
          exact last_le

theorem sortByParamId_sorts (results : List ConfigAckEntry) :
    (sortByParamId results).Perm results ∧ (sortByParamId results).Pairwise fun a b => a.paramId ≤ b.paramId := by
  induction results using List.reverseRecOn with
  | nil => exact ⟨List.Perm.refl [],List.Pairwise.nil⟩
  | append_singleton front last ih =>
      obtain ⟨perm,ordered⟩ := ih
      have step : sortByParamId (front ++ [last]) = (sortByParamId front).rdropWhile (fun r => decide (last.paramId < r.paramId)) ++
          last :: (sortByParamId front).rtakeWhile fun r => decide (last.paramId < r.paramId) := by
        unfold sortByParamId
        rw [List.foldl_append]
        rfl
      rw [step]
      refine ⟨?_,insertion_sorted (sortByParamId front) last ordered⟩
      have inserted := insertion_perm (sortByParamId front) last fun r => decide (last.paramId < r.paramId)
      exact inserted.trans ((perm.cons last).trans (List.perm_append_singleton last front).symm)

-- Results listed in any order, each id once, stand in the order of the table after the sort.
theorem sortByParamId_listed (results rows : List ConfigAckEntry) (listed : results.Perm rows)
    (ascending : rows.Pairwise fun a b => a.paramId < b.paramId) : sortByParamId results = rows := by
  obtain ⟨perm,ordered⟩ := sortByParamId_sorts results
  refine List.Perm.eq_of_pairwise ?_ ordered (ascending.imp UInt16.le_of_lt) (perm.trans listed)
  intro a b inside row le ge
  have apart : (rows.map fun e => e.paramId).Nodup := List.pairwise_map.mpr (ascending.imp UInt16.ne_of_lt)
  exact List.inj_on_of_nodup_map apart ((perm.trans listed).mem_iff.mp inside) row (UInt16.le_antisymm le ge)

-- The other splitter, which walks a store's table by a cursor.
section
variable {π : Type} (persist : Persist π)

theorem held_sized (s : Store π) (d : ParamDef) (status : ParamStatus) (typed : ptypeWidth d.type ≠ 0) : Sized (s.held d status) := by
  obtain ⟨_,len,array⟩ := held_fields s d status typed
  exact ⟨by rw [len]; exact paramValueLen_short d.type,array⟩

-- So is every result a store makes, of a SET as of a GET.
theorem get_sized (s : Store π) (typed : ∀ d ∈ s.table, ptypeWidth d.type ≠ 0) (id : UInt16) : Sized (s.get id) := by
  unfold Store.get
  split
  · exact ⟨Nat.zero_le _,rfl⟩
  case h_2 d found => exact held_sized s d .ok (typed d (row_mem s.table id d found).1)

theorem apply_sized (s : Store π) (typed : ∀ d ∈ s.table, ptypeWidth d.type ≠ 0) (entry : ConfigEntry) : Sized (s.apply persist entry).result := by
  unfold Store.apply
  split
  · exact ⟨Nat.zero_le _,rfl⟩
  case h_2 d found =>
    have wide := typed d (row_mem s.table entry.paramId d found).1
    have held := fun (s : Store π) status => held_sized s d status wide
    have packed : ∀ status raw, Sized {ConfigAckEntry.pack {} d.id status d.type raw with isOverride := true} := by
      intro status raw
      obtain ⟨_,len,array⟩ := pack_fields d.id status d.type raw wide
      exact ⟨by dsimp only; rw [len]; exact paramValueLen_short d.type,array⟩
    dsimp only
    split
    · exact held s _
    · split
      · exact held s _
      · split
        · exact held s _
        · split
          · exact packed _ _
          · split
            · exact held s _
            · split
              · exact packed _ _
              · split
                · exact packed _ _
                · exact packed _ _

theorem fillRows_fills (s : Store π) (rows : List ParamDef) (typed : ∀ d ∈ rows, ptypeWidth d.type ≠ 0) (used count : Nat) :
    s.fillRows rows used count =
      (rows.map fun d => s.held d .ok).take (fillMessage (rows.map fun d => s.held d .ok) used count) := by
  induction rows generalizing used count with
  | nil => rfl
  | cons d rest ih =>
      have len := (held_fields s d .ok (typed d List.mem_cons_self)).2.1
      have later := ih (fun e inside => typed e (List.mem_cons_of_mem d inside)) (used + ptypeResultBytes d.type) (count + 1)
      unfold Store.fillRows
      rw [List.map_cons]
      unfold fillMessage
      rw [len,Nat.add_assoc]
      change _ = List.take (if count < maxConfigAckEntries ∧ used + ptypeResultBytes d.type ≤ maxSchemaPayload then
        1 + fillMessage _ (used + ptypeResultBytes d.type) (count + 1) else 0) _
      by_cases room : count < maxConfigAckEntries ∧ used + ptypeResultBytes d.type ≤ maxSchemaPayload
      · rw [if_pos room,if_neg (by omega),if_neg (by omega),later,Nat.add_comm 1,List.take_succ_cons]
      · rw [if_neg room]
        split
        · rfl
        · rw [if_pos (by omega)]
          rfl

theorem fillMessage_some (e : ConfigAckEntry) (rest : List ConfigAckEntry) (short : e.len.toNat ≤ maxParamValueLen) :
    0 < fillMessage (e :: rest) configAckHdrLen 0 := by
  unfold fillMessage
  rw [if_pos]
  · omega
  · refine ⟨by decide,?_⟩
    change 3 + 5 + e.len.toNat ≤ 196
    change e.len.toNat ≤ 4 at short
    omega

theorem nextReadbackMessage_is (s : Store π) (typed : ∀ d ∈ s.table, ptypeWidth d.type ≠ 0) (op : UInt8) (next messages n : Nat)
    (inside : next < s.table.length) (below : messages < maxConfigAckMessages) (results : List ConfigAckEntry)
    (is : results = (s.table.drop next).map fun d => s.held d .ok) (fills : n = fillMessage results configAckHdrLen 0) :
    s.nextReadbackMessage persist ⟨next,messages⟩ op = (true,⟨next + n,messages + 1⟩,
      {op := op,moreFollows := decide (next + n < s.table.length) && decide (messages + 1 < maxConfigAckMessages)
       persistStatus := (s.readPersistStatus persist).code,entries := results.take n}) ∧ 0 < n ∧ n ≤ results.length := by
  have rows : ∀ d ∈ s.table.drop next, ptypeWidth d.type ≠ 0 := fun d later => typed d (List.mem_of_mem_drop later)
  have filled := fillRows_fills s (s.table.drop next) rows configAckHdrLen 0
  rw [← is,← fills] at filled
  have within : n ≤ results.length := by
    rw [fills]
    exact (fillMessage_longest results configAckHdrLen 0 (Nat.zero_le _) (by decide)).inside
  have some_ : 0 < n := by
    cases left_ : s.table.drop next with
    | nil =>
        rw [List.drop_eq_nil_iff] at left_
        omega
    | cons d rest =>
        rw [left_,List.map_cons] at is
        rw [fills,is]
        exact fillMessage_some _ _ (held_sized s d .ok (rows d (by rw [left_]; exact List.mem_cons_self))).short
  have length : (results.take n).length = n := by rw [List.length_take,Nat.min_eq_left within]
  refine ⟨?_,some_,within⟩
  unfold Store.nextReadbackMessage
  dsimp only
  rw [if_neg (by omega),if_neg (by omega),filled,length]
  have shown : (results.take n).isEmpty = false := by
    rw [List.isEmpty_eq_false_iff]
    intro none_
    rw [none_,List.length_nil] at length
    omega
  rw [shown]
  rfl

theorem readbackFrom_done (s : Store π) (op : UInt8) (cursor : ReadbackCursor)
    (done : s.table.length ≤ cursor.next ∨ maxConfigAckMessages ≤ cursor.messages) : s.readbackFrom persist op cursor = [] := by
  have next : s.nextReadbackMessage persist cursor op = (false,cursor,{}) := by
    unfold Store.nextReadbackMessage
    rcases done with used | many
    · rw [if_pos used]
    · rw [if_pos many,ite_self]
  unfold Store.readbackFrom
  split
  case h_1 other =>
    rw [next] at other
    cases other
  case h_2 => rfl

theorem readbackFrom_next (s : Store π) (op : UInt8) (cursor moved : ReadbackCursor) (message : NodeConfigAckV1)
    (next : s.nextReadbackMessage persist cursor op = (true,moved,message)) :
    s.readbackFrom persist op cursor = message :: s.readbackFrom persist op moved := by
  rw [Store.readbackFrom]
  split
  case h_1 other =>
    rw [next] at other
    cases other
    rfl
  case h_2 other =>
    rw [next] at other
    cases other

-- The cursor's messages are the cut of the rows from where it stands.
theorem readbackFrom_cut (s : Store π) (typed : ∀ d ∈ s.table, ptypeWidth d.type ≠ 0) (answer : ConfigAnswer) (limit next messages : Nat)
    (bound : messages + (limit + 1) = maxConfigAckMessages) (inside : next < s.table.length)
    (persists : answer.persistStatus = s.readPersistStatus persist) :
    s.readbackFrom persist answer.op ⟨next,messages⟩ =
      answer.acks (cutMessages (limit + 1) ((s.table.drop next).map fun d => s.held d .ok)) := by
  induction limit generalizing next messages with
  | zero =>
      obtain ⟨is,_,_⟩ := nextReadbackMessage_is persist s typed answer.op next messages _ inside (by omega) _ rfl rfl
      rw [readbackFrom_next persist s answer.op _ _ _ is,readbackFrom_done persist s answer.op _ (.inr (by dsimp only; omega))]
      unfold cutMessages
      dsimp only
      rw [show decide (messages + 1 < maxConfigAckMessages) = false from decide_eq_false (by omega),Bool.and_false,persists.symm,
        show cutMessages 0 _ = [] from rfl,ite_self]
      rfl
  | succ limit ih =>
      obtain ⟨is,_,_⟩ := nextReadbackMessage_is persist s typed answer.op next messages _ inside (by omega) _ rfl rfl
      rw [readbackFrom_next persist s answer.op _ _ _ is]
      unfold cutMessages
      dsimp only
      generalize filled : fillMessage ((s.table.drop next).map fun d => s.held d .ok) configAckHdrLen 0 = n at *
      rw [show decide (messages + 1 < maxConfigAckMessages) = true from decide_eq_true (by omega),Bool.and_true,persists.symm]
      have length : ((s.table.drop next).map fun d => s.held d .ok).length = s.table.length - next := by rw [List.length_map,List.length_drop]
      by_cases whole : s.table.length - next ≤ n
      · rw [readbackFrom_done persist s answer.op _ (.inl (by dsimp only; omega)),if_pos (by rw [length]; exact whole),
          show decide (next + n < s.table.length) = false from decide_eq_false (by omega)]
        rfl
      · have rest := ih (next + n) (messages + 1) (by omega) (by omega)
        rw [← List.drop_drop,List.map_drop] at rest
        rw [rest,if_neg (by rw [length]; exact whole),show decide (next + n < s.table.length) = true from decide_eq_true (by omega)]
        have more : (cutMessages (limit + 1) (((s.table.drop next).map fun d => s.held d .ok).drop n)).isEmpty = false :=
          List.isEmpty_eq_false_iff.mpr (cutMessages_cut limit _).some
        rw [ConfigAnswer.acks,more]
        rfl

end

theorem answer_cut (answer : ConfigAnswer) : Cut FitsMessage answer.limit answer.results (cutMessages answer.limit answer.results) := by
  unfold ConfigAnswer.limit
  split
  · exact cutMessages_cut 3 answer.results
  · exact cutMessages_cut 0 answer.results

theorem acks_flat (answer : ConfigAnswer) (parts : List (List ConfigAckEntry)) : (answer.acks parts).flatMap (fun ack => ack.entries) = parts.flatten := by
  rw [List.flatMap_def,acks_entries]

theorem acks_repersisted (answer other : ConfigAnswer) (op : other.op = answer.op) (parts : List (List ConfigAckEntry)) :
    (answer.acks parts).map (fun ack => {ack with persistStatus := other.persistStatus.code}) = other.acks parts := by
  induction parts with
  | nil => rfl
  | cons entries rest ih =>
      rw [ConfigAnswer.acks,List.map_cons,ih,ConfigAnswer.acks,op]

-- Up to 21 results fit one message whatever their values are.
theorem few_fit (part : List ConfigAckEntry) (few : part.length ≤ 21) (sized : ∀ e ∈ part, Sized e) : FitsMessage part := by
  refine ⟨Nat.le_trans few (by decide),?_⟩
  have cheap : ∀ part : List ConfigAckEntry, (∀ e ∈ part, Sized e) → (part.map resultCost).sum ≤ part.length * 9 := by
    intro part sized
    induction part with
    | nil => exact Nat.le_refl 0
    | cons e rest ih =>
        have later := ih fun o member => sized o (List.mem_cons_of_mem e member)
        have short := (sized e List.mem_cons_self).short
        change e.len.toNat ≤ 4 at short
        rw [List.map_cons,List.sum_cons,List.length_cons]
        change 5 + e.len.toNat + _ ≤ _
        omega
  have total := cheap part sized
  change _ ≤ 193
  omega

-- A table's worth of results is cut whole.
theorem table_cut (results : List ConfigAckEntry) (few : results.length ≤ maxTableParams) (sized : ∀ e ∈ results, Sized e) :
    (cutMessages maxConfigAckMessages results).flatten = results := by
  change results.length ≤ 64 at few
  have part : ∀ n, FitsMessage ((results.drop n).take 21) := by
    intro n
    refine few_fit _ ?_ ?_
    · rw [List.length_take]
      omega
    · intro e inside
      exact sized e (List.mem_of_mem_drop (List.mem_of_mem_take inside))
  have last : (results.drop 63).take 21 = results.drop 63 := List.take_of_length_le (by rw [List.length_drop]; omega)
  refine (cutMessages_cut 3 results).covers (holds_hereditary resultCost _ _)
    [results.take 21,(results.drop 21).take 21,(results.drop 42).take 21,(results.drop 63).take 21] (Nat.le_refl 4) ?_ ?_
  · intro chunk inside
    simp only [List.mem_cons,List.not_mem_nil,or_false] at inside
    rcases inside with rfl | rfl | rfl | rfl
    · exact part 0
    · exact part 21
    · exact part 42
    · exact part 63
  · rw [last]
    have whole : results.take 21 ++ ((results.drop 21).take 21 ++ ((results.drop 42).take 21 ++ results.drop 63)) = results := by
      rw [show results.drop 63 = (results.drop 42).drop 21 by rw [List.drop_drop],List.take_append_drop,
        show results.drop 42 = (results.drop 21).drop 21 by rw [List.drop_drop],List.take_append_drop,List.take_append_drop]
    simp only [List.flatten_cons,List.flatten_nil,List.append_nil]
    rw [whole]

section
variable {σ π : Type} (mac : Mac) (ops : Application σ) (persist : Persist π)

-- The messages of an answer are its results from the front, as many as they hold, the marks as the order has them; they are queued
-- whole or not at all.
structure AnswerSent (n : Engine σ) (dst : NodeId) (answer : ConfigAnswer) (replySeq : Option Seq) : Prop where
  nonempty : answer.messages ≠ []
  few : answer.messages.length ≤ answer.limit
  marked : ∀ (i : Nat) ack, answer.messages[i]? = some ack →
    ack.moreFollows = decide (i + 1 < answer.messages.length) ∧ ack.op = answer.op ∧ ack.persistStatus = answer.persistStatus.code
  fits : ∀ ack ∈ answer.messages, ack.entries.length ≤ maxConfigAckEntries ∧
    ∃ payload, ack.serialize = some payload ∧ payload.length ≤ maxSchemaPayload
  front : answer.messages.flatMap (fun ack => ack.entries) <+: answer.results
  whole : ∀ parts : List (List ConfigAckEntry), parts.length ≤ answer.limit → (∀ part ∈ parts, FitsMessage part) →
    parts.flatten = answer.results → answer.messages.flatMap (fun ack => ack.entries) = answer.results
  room : answer.messages.length ≤ n.freeSlots → (n.sendConfigAnswer mac dst answer replySeq).1 = true ∧
    ∃ frames, (n.sendConfigAnswer mac dst answer replySeq).2.outbox = n.outbox ++ frames ∧
      List.Forall₂ (Carries mac n.ctx dst) answer.messages frames
  full : n.freeSlots < answer.messages.length → (n.sendConfigAnswer mac dst answer replySeq).1 = false ∧
    (n.sendConfigAnswer mac dst answer replySeq).2.outbox = n.outbox

theorem answer_sent (n : Engine σ) (dst : NodeId) (answer : ConfigAnswer) (replySeq : Option Seq) (sized : ∀ e ∈ answer.results, Sized e) :
    AnswerSent mac n dst answer replySeq := by
  have cut := answer_cut answer
  have length := acks_length answer (cutMessages answer.limit answer.results)
  have sized_ : ∀ part ∈ cutMessages answer.limit answer.results, ∀ e ∈ part, Sized e :=
    fun part inside e member => sized e (cut.front.subset (List.mem_flatten_of_mem inside member))
  have sends : n.sendConfigAnswer mac dst answer replySeq = if n.freeSlots < (cutMessages answer.limit answer.results).length then
      (false,n.countDropped) else n.sendMessages mac dst answer replySeq (cutMessages answer.limit answer.results) := rfl
  constructor
  · intro none_
    rw [ConfigAnswer.messages] at none_
    rw [none_] at length
    exact cut.some (List.eq_nil_of_length_eq_zero length.symm)
  · rw [ConfigAnswer.messages,length]
    exact cut.few
  · intro i ack at_
    rw [ConfigAnswer.messages,length]
    exact acks_marked answer _ i ack at_
  · intro ack inside
    have member : ack.entries ∈ cutMessages answer.limit answer.results := by
      rw [← acks_entries answer (cutMessages answer.limit answer.results)]
      exact List.mem_map_of_mem inside
    obtain ⟨payload,written,short,_⟩ := message_serializes ack (cut.fits _ member) (sized_ _ member)
    exact ⟨(cut.fits _ member).1,payload,written,short⟩
  · rw [ConfigAnswer.messages,acks_flat]
    exact cut.front
  · intro parts few fits whole
    rw [ConfigAnswer.messages,acks_flat]
    exact cut.covers (holds_hereditary resultCost _ _) parts few fits (whole ▸ List.suffix_rfl)
  · intro free
    rw [ConfigAnswer.messages,length] at free
    obtain ⟨frames,sent,outbox,each⟩ := sendMessages_queues mac n dst answer replySeq _ cut.fits sized_ free
    rw [sends,if_neg (by omega)]
    exact ⟨sent,frames,outbox,each⟩
  · intro full
    rw [ConfigAnswer.messages,length] at full
    rw [sends,if_pos full]
    exact ⟨rfl,rfl⟩

-- The answer to a GET_ALL, against a store of the same rows and values.
structure ReadbackSame (n : Engine σ) (s : Store π) (config : NodeConfigV1) (nowMs : UInt32) : Prop where
  sized : ∀ e ∈ (n.applyConfig ops config nowMs).1.results, Sized e
  ascending : (n.applyConfig ops config nowMs).1.results.Pairwise fun a b => a.paramId < b.paramId
  values : (n.applyConfig ops config nowMs).1.results = s.table.map fun d => s.get d.id
  same : (n.applyConfig ops config nowMs).1.messages = (s.readbackFrom persist configOpGetAll {}).map fun ack =>
    {ack with persistStatus := (n.applyConfig ops config nowMs).1.persistStatus.code}
  once : (s.readbackFrom persist configOpGetAll {}).flatMap (fun ack => ack.entries.map fun e => e.paramId) = s.table.map ParamDef.id

theorem getAll_answer (n : Engine σ) (config : NodeConfigV1) (nowMs : UInt32) (getAll : config.op = configOpGetAll) :
    ∃ status, (n.applyConfig ops config nowMs).1 = ⟨configOpGetAll,status,sortByParamId ((n.listAll ops).1.take maxResults)⟩ := by
  refine ⟨((n.listAll ops).2).currentPersist ops,?_⟩
  unfold Engine.applyConfig
  rw [getAll,if_neg (by decide),if_neg (by decide),if_pos rfl]

-- The engine lists its PHY group behind the application's rows.
theorem listAll_some (n : Engine σ) : 0 < (n.listAll ops).1.length := by
  unfold Engine.listAll
  dsimp only
  rw [List.length_append,List.length_map]
  have group : (nodeCommonParams.filter fun d => isPhy d.id).length = 6 := by decide
  omega

theorem readback_same (n : Engine σ) (s : Store π) (config : NodeConfigV1) (nowMs : UInt32) (getAll : config.op = configOpGetAll)
    (built : s.table.Built) (listed : (n.listAll ops).1.Perm (s.table.map fun d => s.get d.id)) :
    ReadbackSame ops persist n s config nowMs := by
  obtain ⟨status,is⟩ := getAll_answer ops n config nowMs getAll
  have rows : 0 < s.table.length := by
    have some_ := listAll_some ops n
    rwa [listed.length_eq,List.length_map] at some_
  have gets : (s.table.map fun d => s.get d.id) = s.table.map fun d => s.held d .ok := by
    refine List.map_congr_left fun d inside => ?_
    unfold Store.get
    rw [built.row d inside]
  have ids : ∀ d ∈ s.table, (s.held d .ok).paramId = d.id := fun d inside => (held_fields s d .ok (built.typed d inside)).1
  have ascending : (s.table.map fun d => s.held d .ok).Pairwise fun a b => a.paramId < b.paramId := by
    refine List.pairwise_map.mpr (built.ascending.imp_of_mem ?_)
    intro d e one two less
    rw [ids d one,ids e two]
    exact less
  have few : (s.table.map fun d => s.held d .ok).length ≤ maxTableParams := by
    rw [List.length_map]
    exact built.small
  rw [gets] at listed
  have all : (n.listAll ops).1.take maxResults = (n.listAll ops).1 := by
    refine List.take_of_length_le ?_
    rw [listed.length_eq]
    exact Nat.le_trans few (by decide)
  have sorted := sortByParamId_listed _ _ listed ascending
  rw [all,sorted] at is
  have sized : ∀ e ∈ s.table.map fun d => s.held d .ok, Sized e := by
    intro e inside
    obtain ⟨d,member,rfl⟩ := List.mem_map.mp inside
    exact held_sized s d .ok (built.typed d member)
  have walked := readbackFrom_cut persist s built.typed ⟨configOpGetAll,s.readPersistStatus persist,[]⟩ 3 0 0 rfl rows rfl
  rw [List.drop_zero] at walked
  constructor
  · rw [is]
    exact sized
  · rw [is]
    exact ascending
  · rw [is,gets]
  · rw [is]
    change (⟨configOpGetAll,status,_⟩ : ConfigAnswer).acks (cutMessages maxConfigAckMessages _) = List.map _ (s.readbackFrom persist configOpGetAll ⟨0,0⟩)
    rw [walked]
    exact (acks_repersisted ⟨configOpGetAll,s.readPersistStatus persist,[]⟩ ⟨configOpGetAll,status,s.table.map fun d => s.held d .ok⟩ rfl _).symm
  · rw [walked,← List.map_flatMap,acks_flat]
    refine (congrArg _ (table_cut _ few sized)).trans ?_
    rw [List.map_map]
    exact List.map_congr_left ids

-- Any answer is cut, marked and queued so, and that to a GET_ALL is the store's own readback.
theorem config_answers_whole :
    (∀ (n : Engine σ) (dst : NodeId) (answer : ConfigAnswer) (replySeq : Option Seq), (∀ e ∈ answer.results, Sized e) →
      AnswerSent mac n dst answer replySeq) ∧
    (∀ (n : Engine σ) (s : Store π) (config : NodeConfigV1) (nowMs : UInt32), config.op = configOpGetAll → s.table.Built →
      (n.listAll ops).1.Perm (s.table.map fun d => s.get d.id) → ReadbackSame ops persist n s config nowMs) :=
  ⟨answer_sent mac,readback_same ops persist⟩

end

-- The smallest application that lists rows: the node-common ones that are not the PHY group's, the last first.
def lister : Application Unit where
  capabilities _ _ := capAnswersConfig
  onPoll app _ _ _ _ := (none,app)
  onPing app _ _ _ _ _ := (none,app)
  execute app _ _ _ := ({},app)
  buildStatus app _ _ _ := (([],0),app)
  buildEvent app _ _ _ _ := (([],0),app)
  configSet app _ _ := (none,[],app)
  configGet app _ _ := (none,app)
  configList app _ := ((nodeCommonParams.filter fun d => !isPhy d.id).reverse.map fun d =>
    ({table := nodeCommonParams} : Store Unit).get d.id,app)
  configRestoreDefaults app _ := ([],app)
  configUnpersisted _ _ := false
  phySlot _ _ := 0
  phyMembers _ := 0
  hexForward app _ _ _ := (none,app)
  hexTimeoutMs _ _ := 0
  withhold app _ _ _ := (false,app)
  forceRejectCtx app _ _ := (false,app)
  freshAck app _ _ := (.send,app)

-- Forty values of four bytes, every other one overridden, are more than one message holds.
def fortyRows : ConfigAnswer :=
  ⟨configOpGet,.persisted,(List.range 40).map fun k =>
    {paramId := UInt16.ofNat (0x1000 + k),isOverride := k % 2 == 1,ptype := ptypeU32,len := 4}⟩

theorem fortyRows_sized : ∀ e ∈ fortyRows.results, Sized e := by
  intro e inside
  obtain ⟨k,_,rfl⟩ := List.mem_map.mp inside
  exact ⟨(by decide : (4 : UInt8).toNat ≤ maxParamValueLen),rfl⟩

theorem common_rows_whole :
    fortyRows.messages.map (fun ack => (ack.entries.length,ack.moreFollows)) = [(21,true),(19,false)] ∧
      AnswerSent lengthMac ({app := ()} : Engine Unit) 0xFE fortyRows (some 5) ∧
      ReadbackSame lister phyPersist {app := ()} {table := nodeCommonParams} {op := configOpGetAll} 0 :=
  ⟨by decide +kernel,
    (config_answers_whole lengthMac lister phyPersist).1 {app := ()} 0xFE fortyRows (some 5) fortyRows_sized,
    (config_answers_whole lengthMac lister phyPersist).2 {app := ()} {table := nodeCommonParams} {op := configOpGetAll} 0 rfl
      ⟨by decide,by decide,by decide⟩ (by decide +kernel)⟩

end LoraRan.Node
