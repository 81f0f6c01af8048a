import LoraRan.Config.Overrides

namespace LoraRan.Config
open Protocol

-- A table as its blocks are added: in ascending order of the ids, each row of a type with a width, and no more than there is room for.
structure Table.Built (t : Table) : Prop where
  ascending : t.Pairwise fun d e => d.id < e.id
  typed : ∀ d ∈ t, ptypeWidth d.type ≠ 0
  small : t.length ≤ maxTableParams

theorem Table.Built.row {t : Table} (built : t.Built) (d : ParamDef) (member : d ∈ t) : t.row d.id = some d := by
  unfold Table.row
  have distinct : (t.map ParamDef.id).Nodup := List.pairwise_map.mpr (built.ascending.imp UInt16.ne_of_lt)
  obtain ⟨found,is⟩ := Option.isSome_iff_exists.mp (List.find?_isSome.mpr ⟨d,member,beq_self_eq_true d.id⟩ : (t.find? fun e => e.id == d.id).isSome)
  have same := List.find?_some is
  rw [is,List.inj_on_of_nodup_map distinct (List.mem_of_find?_eq_some is) member (by simpa using same)]

-- Where a readback has reached: an index into the table, and how many messages went before.
structure ReadbackCursor where
  next : Nat := 0
  messages : Nat := 0

def ptypeResultBytes (ptype : UInt8) : Nat := configAckEntryHdrLen + ptypeWidth ptype

section
variable {π : Type} (ops : Persist π)

-- The rows that fit the message that already holds `used` bytes and `count` results.
def Store.fillRows (s : Store π) : List ParamDef → Nat → Nat → List ConfigAckEntry
  | [],_,_ => []
  | d :: rest,used,count =>
      if maxSchemaPayload < used + ptypeResultBytes d.type then []
      else if maxConfigAckEntries ≤ count then []
      else s.held d .ok :: s.fillRows rest (used + ptypeResultBytes d.type) (count + 1)

theorem paramValueLen_short (ptype : UInt8) : paramValueLen ptype ≤ maxParamValueLen := by
  unfold paramValueLen
  split
  · decide
  · split
    · decide
    · split
      · decide
      · decide

theorem pack_fields (id : UInt16) (status : ParamStatus) (ptype : UInt8) (raw : UInt32) (typed : ptypeWidth ptype ≠ 0) :
    (ConfigAckEntry.pack {} id status ptype raw).paramId = id ∧ (ConfigAckEntry.pack {} id status ptype raw).len.toNat = ptypeWidth ptype ∧
      (ConfigAckEntry.pack {} id status ptype raw).value.length = maxParamValueLen := by
  have short := paramValueLen_short ptype
  have most : maxParamValueLen = 4 := rfl
  have wide : paramValueLen ptype ≠ 0 := typed
  unfold ConfigAckEntry.pack
  rw [if_neg wide]
  refine ⟨rfl,UInt8.toNat_ofNat_of_lt' (by rw [UInt8.size]; omega),?_⟩
  unfold packValue
  rw [List.length_append,List.length_take,List.length_replicate]
  change min (paramValueLen ptype) 4 + _ = _
  omega

theorem held_fields (s : Store π) (d : ParamDef) (status : ParamStatus) (typed : ptypeWidth d.type ≠ 0) :
    (s.held d status).paramId = d.id ∧ (s.held d status).len.toNat = ptypeWidth d.type ∧ (s.held d status).value.length = maxParamValueLen :=
  pack_fields d.id status d.type (rawBits (s.effective d.id) d.type) typed

-- Whether there is a message, where the cursor stands after it, and the message.
def Store.nextReadbackMessage (s : Store π) (cursor : ReadbackCursor) (op : UInt8) : Bool × ReadbackCursor × NodeConfigAckV1 :=
  if s.table.length ≤ cursor.next then (false,cursor,{})
  else if maxConfigAckMessages ≤ cursor.messages then (false,cursor,{})
  else
    let entries := s.fillRows (s.table.drop cursor.next) configAckHdrLen 0
    let moved : ReadbackCursor := ⟨cursor.next + entries.length,cursor.messages + 1⟩
    let more := decide (moved.next < s.table.length) && decide (moved.messages < maxConfigAckMessages)
    (!entries.isEmpty,moved,{op := op,moreFollows := more,persistStatus := (s.readPersistStatus ops).code,entries := entries})

theorem nextReadbackMessage_moves (s : Store π) (cursor moved : ReadbackCursor) (op : UInt8) (message : NodeConfigAckV1)
    (next : s.nextReadbackMessage ops cursor op = (true,moved,message)) :
    cursor.messages < maxConfigAckMessages ∧ moved.messages = cursor.messages + 1 := by
  unfold Store.nextReadbackMessage at next
  split at next
  · cases next
  · split at next
    · cases next
    case isFalse below =>
      dsimp only at next
      rw [Prod.mk.injEq,Prod.mk.injEq] at next
      obtain ⟨_,rfl,_⟩ := next
      exact ⟨Nat.lt_of_not_le below,rfl⟩

-- A caller sends while there is a message, and the bound on the messages ends it.
def Store.readbackFrom (s : Store π) (op : UInt8) (cursor : ReadbackCursor) : List NodeConfigAckV1 :=
  match _next : s.nextReadbackMessage ops cursor op with
  | (true,moved,message) => message :: s.readbackFrom op moved
  | (false,_,_) => []
  termination_by maxConfigAckMessages - cursor.messages
  decreasing_by
    obtain ⟨below,moves⟩ := nextReadbackMessage_moves ops s cursor moved op message _next
    omega

end
end LoraRan.Config
