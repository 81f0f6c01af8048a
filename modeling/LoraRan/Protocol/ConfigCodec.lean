import LoraRan.Library.Records
import LoraRan.Protocol.NodeConfig

namespace LoraRan.Protocol
open Library.LittleEndian Library.Records

-- serialize() into a buffer of `cap` bytes.
def NodeConfigV1.serializeTo (v : NodeConfigV1) (cap : Nat) : Except Status Bytes :=
  if maxConfigEntries < v.entries.length ∨ v.entries.any (fun e => decide (maxParamValueLen < e.len.toNat)) then .error .badLength
  else
    let bytes := [v.op,UInt8.ofNat v.entries.length] ++ v.entries.flatMap ConfigEntry.serialize
    if cap < bytes.length then .error .bufferTooSmall
    else if maxSchemaPayload < bytes.length then .error .badLength
    else .ok bytes

def NodeConfigAckV1.serializeTo (v : NodeConfigAckV1) (cap : Nat) : Except Status Bytes :=
  if maxConfigAckEntries < v.entries.length ∨ v.entries.any (fun e => decide (maxParamValueLen < e.len.toNat)) then .error .badLength
  else
    let bytes := [v.op,v.persistStatus,UInt8.ofNat v.entries.length ||| (if v.moreFollows then configAckMoreFollows else 0)] ++
      v.entries.flatMap ConfigAckEntry.serialize
    if cap < bytes.length then .error .bufferTooSmall
    else if maxSchemaPayload < bytes.length then .error .badLength
    else .ok bytes

def readConfigAckEntries (buf : Bytes) : Nat → Nat → Option (List ConfigAckEntry × Nat)
  | 0,off => some ([],off)
  | count+1,off =>
      if buf.length < off + configAckEntryHdrLen then none
      else
        let status := u8At buf (off + 2)
        let len := u8At buf (off + 4)
        if buf.length < off + configAckEntryHdrLen + len.toNat then none
        else
          let bytes := (buf.drop (off + configAckEntryHdrLen)).take len.toNat
          let value := if maxParamValueLen < len.toNat then zeroValue
            else bytes ++ List.replicate (maxParamValueLen - len.toNat) 0
          let entry : ConfigAckEntry := {
            paramId := u16At buf off
            status := status &&& ~~~configStatusOverride
            isOverride := decide (status &&& configStatusOverride ≠ 0)
            ptype := u8At buf (off + 3)
            len := len
            value := value}
          match readConfigAckEntries buf count (off + configAckEntryHdrLen + len.toNat) with
          | none => none
          | some (rest,finish) => some (entry :: rest,finish)

def NodeConfigAckV1.deserialize (buf : Bytes) : Option NodeConfigAckV1 :=
  if buf.length < configAckHdrLen then none
  else
    let count := u8At buf 2
    if maxConfigAckEntries < (count &&& ~~~configAckMoreFollows).toNat then none
    else match readConfigAckEntries buf (count &&& ~~~configAckMoreFollows).toNat configAckHdrLen with
      | none => none
      | some (entries,finish) =>
          if finish = buf.length then
            some {op := u8At buf 0,persistStatus := u8At buf 1,moreFollows := decide (count &&& configAckMoreFollows ≠ 0),entries := entries}
          else none

-- The messages as the source's types hold them: each value is its array of four bytes.
structure HeldConfig where
  config : NodeConfigV1
  sized : ∀ e ∈ config.entries, e.value.length = maxParamValueLen

structure HeldConfigAck where
  ack : NodeConfigAckV1
  sized : ∀ e ∈ ack.entries, e.value.length = maxParamValueLen

-- What an entry's record on the wire stands for. The value of a longer one is dropped.
def heldValue (body : Bytes) : Bytes :=
  if maxParamValueLen < body.length then zeroValue else body ++ List.replicate (maxParamValueLen - body.length) 0

def ConfigEntry.ofRecord (r : Bytes) : ConfigEntry :=
  {paramId := u16At r 0,ptype := u8At r 2,len := u8At r 3,value := heldValue (r.drop configEntryHdrLen)}

def ConfigAckEntry.ofRecord (r : Bytes) : ConfigAckEntry :=
  {paramId := u16At r 0,status := u8At r 2 &&& ~~~configStatusOverride,isOverride := decide (u8At r 2 &&& configStatusOverride ≠ 0),
   ptype := u8At r 3,len := u8At r 4,value := heldValue (r.drop configAckEntryHdrLen)}

-- An entry with nothing left behind its value, and with no more in its status than the wire carries.
def ConfigEntry.settled (e : ConfigEntry) : ConfigEntry := {e with value := heldValue (e.value.take e.len.toNat)}

def ConfigAckEntry.settled (e : ConfigAckEntry) : ConfigAckEntry :=
  {e with status := e.status &&& ~~~configStatusOverride,value := heldValue (e.value.take e.len.toNat)}

-- The codec's walk and the schemas' stop at the same places.
theorem recordsEnd_records (headLen : Nat) (p : Bytes) (count off : Nat) :
    recordsEnd headLen p count off = (readRecords headLen p count off).map Prod.snd := by
  induction count generalizing off with
  | zero => rfl
  | succ count ih =>
    unfold recordsEnd readRecords
    dsimp only
    split
    · rfl
    · split
      · rfl
      · rw [ih,Option.map_map]
        rfl

theorem u16At_cut (p : Bytes) (off n : Nat) (wide : 2 ≤ n) : u16At ((p.drop off).take n) 0 = u16At p off := by
  unfold u16At
  rw [u8At_take _ _ _ (by omega),u8At_take _ _ _ (by omega),u8At_drop,u8At_drop]
  rfl

theorem u8At_cut (p : Bytes) (off n i : Nat) (inside : i < n) : u8At ((p.drop off).take n) i = u8At p (off + i) := by
  rw [u8At_take _ _ _ inside,u8At_drop]

theorem body_cut (p : Bytes) (off headLen len : Nat) :
    ((p.drop off).take (headLen + len)).drop headLen = (p.drop (off + headLen)).take len := by
  rw [List.drop_take,Nat.add_sub_cancel_left,List.drop_drop]

theorem heldValue_cut (p : Bytes) (at_ len : Nat) (inside : at_ + len ≤ p.length) :
    heldValue ((p.drop at_).take len) = if maxParamValueLen < len then zeroValue
      else (p.drop at_).take len ++ List.replicate (maxParamValueLen - len) 0 := by
  have length : ((p.drop at_).take len).length = len := by
    rw [List.length_take,List.length_drop]
    omega
  unfold heldValue
  rw [length]

theorem ofRecord_cut (p : Bytes) (off : Nat) (inside : off + configEntryHdrLen + (u8At p (off + 3)).toNat ≤ p.length) :
    ConfigEntry.ofRecord ((p.drop off).take (configEntryHdrLen + (u8At p (off + 3)).toNat)) =
      {paramId := u16At p off,ptype := u8At p (off + 2),len := u8At p (off + 3)
       value := if maxParamValueLen < (u8At p (off + 3)).toNat then zeroValue
         else (p.drop (off + configEntryHdrLen)).take (u8At p (off + 3)).toNat ++
           List.replicate (maxParamValueLen - (u8At p (off + 3)).toNat) 0} := by
  have head : configEntryHdrLen = 4 := rfl
  unfold ConfigEntry.ofRecord
  rw [u16At_cut _ _ _ (by omega),u8At_cut _ _ _ _ (by omega),u8At_cut _ _ _ _ (by omega),body_cut,heldValue_cut _ _ _ inside]

theorem ackRecord_cut (p : Bytes) (off : Nat) (inside : off + configAckEntryHdrLen + (u8At p (off + 4)).toNat ≤ p.length) :
    ConfigAckEntry.ofRecord ((p.drop off).take (configAckEntryHdrLen + (u8At p (off + 4)).toNat)) =
      {paramId := u16At p off
       status := u8At p (off + 2) &&& ~~~configStatusOverride
       isOverride := decide (u8At p (off + 2) &&& configStatusOverride ≠ 0)
       ptype := u8At p (off + 3)
       len := u8At p (off + 4)
       value := if maxParamValueLen < (u8At p (off + 4)).toNat then zeroValue
         else (p.drop (off + configAckEntryHdrLen)).take (u8At p (off + 4)).toNat ++
           List.replicate (maxParamValueLen - (u8At p (off + 4)).toNat) 0} := by
  have head : configAckEntryHdrLen = 5 := rfl
  unfold ConfigAckEntry.ofRecord
  rw [u16At_cut _ _ _ (by omega),u8At_cut _ _ _ _ (by omega),u8At_cut _ _ _ _ (by omega),u8At_cut _ _ _ _ (by omega),body_cut,
    heldValue_cut _ _ _ inside]

theorem readConfigEntries_records (p : Bytes) (count off : Nat) :
    readConfigEntries p count off = (readRecords configEntryHdrLen p count off).map fun (rs,finish) => (rs.map ConfigEntry.ofRecord,finish) := by
  induction count generalizing off with
  | zero => rfl
  | succ count ih =>
    have last : off + configEntryHdrLen - 1 = off + 3 := rfl
    unfold readConfigEntries readRecords
    dsimp only
    rw [last]
    split
    · rfl
    · split
      · rfl
      · rename_i whole
        rw [ih,Option.map_map,← ofRecord_cut p off (by omega)]
        cases readRecords configEntryHdrLen p count (off + configEntryHdrLen + (u8At p (off + 3)).toNat) with
        | none => rfl
        | some read => rfl

theorem readConfigAckEntries_records (p : Bytes) (count off : Nat) :
    readConfigAckEntries p count off =
      (readRecords configAckEntryHdrLen p count off).map fun (rs,finish) => (rs.map ConfigAckEntry.ofRecord,finish) := by
  induction count generalizing off with
  | zero => rfl
  | succ count ih =>
    have last : off + configAckEntryHdrLen - 1 = off + 4 := rfl
    unfold readConfigAckEntries readRecords
    dsimp only
    rw [last]
    split
    · rfl
    · split
      · rfl
      · rename_i whole
        rw [ih,Option.map_map,← ackRecord_cut p off (by omega)]
        cases readRecords configAckEntryHdrLen p count (off + configAckEntryHdrLen + (u8At p (off + 4)).toNat) with
        | none => rfl
        | some read => rfl

-- A walk that ends with the string is the string behind its head, cut into records.
theorem records_iff (headLen : Nat) (headed : 0 < headLen) (front body : Bytes) (count : Nat) (rs : List Bytes) :
    readRecords headLen (front ++ body) count front.length = some (rs,(front ++ body).length) ↔
      (∀ r ∈ rs, Framed headLen r) ∧ rs.length = count ∧ body = rs.flatten := by
  constructor
  · intro read
    obtain ⟨counted,framed,cut,_⟩ := readRecords_sound headLen _ headed count front.length rs _ (by rw [List.length_append]; omega) read
    rw [List.drop_left,List.drop_length,List.append_nil] at cut
    exact ⟨framed,counted,cut⟩
  · rintro ⟨framed,rfl,rfl⟩
    have laid := readRecords_laid headLen rs framed front []
    rw [List.append_nil] at laid
    rw [laid,List.length_append]

theorem count_byte (n most : Nat) (few : n ≤ most) (small : most < 128) : (UInt8.ofNat n).toNat = n := UInt8.toNat_ofNat_of_lt' (by
  have bound : UInt8.size = 256 := rfl
  omega)

theorem byte_counted (b : UInt8) (n : Nat) (same : n = b.toNat) : UInt8.ofNat n = b := by
  rw [same]
  exact UInt8.ofNat_toNat

theorem two_bytes (buf : Bytes) (long : 2 ≤ buf.length) : ∃ a b body, buf = [a,b] ++ body := by
  obtain ⟨a,rest,rfl⟩ := List.exists_cons_of_length_pos (l := buf) (by omega)
  obtain ⟨b,body,rfl⟩ := List.exists_cons_of_length_pos (l := rest) (by rw [List.length_cons] at long; omega)
  exact ⟨a,b,body,rfl⟩

theorem three_bytes (buf : Bytes) (long : 3 ≤ buf.length) : ∃ a b c body, buf = [a,b,c] ++ body := by
  obtain ⟨a,b,rest,rfl⟩ := two_bytes buf (by omega)
  obtain ⟨c,body,rfl⟩ := List.exists_cons_of_length_pos (l := rest) (by rw [List.length_append] at long; change 3 ≤ 2 + _ at long; omega)
  exact ⟨a,b,c,body,rfl⟩

-- A CONFIG is its two bytes and as many records as the second says.
theorem config_reads (buf : Bytes) (v : NodeConfigV1) : NodeConfigV1.deserialize buf = some v ↔
    ∃ rs : List Bytes, (∀ r ∈ rs, Framed configEntryHdrLen r) ∧ rs.length ≤ maxConfigEntries ∧
      buf = [v.op,UInt8.ofNat rs.length] ++ rs.flatten ∧ v.entries = rs.map ConfigEntry.ofRecord := by
  constructor
  · intro read
    unfold NodeConfigV1.deserialize at read
    split at read; · cases read
    rename_i long
    split at read; · cases read
    rename_i few
    obtain ⟨op,count,body,rfl⟩ := two_bytes buf (Nat.not_lt.mp long)
    have announced : u8At ([op,count] ++ body) 1 = count := rfl
    rw [announced] at few read
    rw [readConfigEntries_records] at read
    cases walked : readRecords configEntryHdrLen ([op,count] ++ body) count.toNat configHdrLen with
    | none =>
      rw [walked] at read
      cases read
    | some pair =>
      obtain ⟨rs,finish⟩ := pair
      rw [walked] at read
      dsimp only [Option.map_some] at read
      split at read
      · rename_i whole
        cases read
        subst whole
        obtain ⟨framed,counted,rfl⟩ := (records_iff configEntryHdrLen (by decide) [op,count] body count.toNat rs).mp walked
        refine ⟨rs,framed,by omega,?_,rfl⟩
        rw [byte_counted count rs.length counted]
        rfl
      · cases read
  · rintro ⟨rs,framed,few,rfl,entries⟩
    have count := count_byte rs.length maxConfigEntries few (by decide)
    have announced : u8At ([v.op,UInt8.ofNat rs.length] ++ rs.flatten) 1 = UInt8.ofNat rs.length := rfl
    have walked := (records_iff configEntryHdrLen (by decide) [v.op,UInt8.ofNat rs.length] rs.flatten rs.length rs).mpr ⟨framed,rfl,rfl⟩
    unfold NodeConfigV1.deserialize
    rw [if_neg (by rw [List.length_append]; change ¬2 + _ < 2; omega),announced,count,if_neg (Nat.not_lt.mpr few),readConfigEntries_records]
    have read : readRecords configEntryHdrLen ([v.op,UInt8.ofNat rs.length] ++ rs.flatten) rs.length configHdrLen = some (rs,_) := walked
    rw [read]
    dsimp only [Option.map_some]
    rw [if_pos rfl,← entries]
    rfl

-- A byte whose top bit is a mark of its own, and whose other bits are a value.
section Marked
variable (top : UInt8) (high : top = 0x80) (c : UInt8) (marked : Bool)

include high

theorem mark_joined : (c &&& ~~~top) ||| (if decide (c &&& top ≠ 0) then top else 0) = c := by
  have all : ∀ n : Fin 256, (UInt8.ofFin n &&& ~~~0x80) ||| (if decide (UInt8.ofFin n &&& 0x80 ≠ 0) then 0x80 else 0) = UInt8.ofFin n := by
    decide +kernel
  rw [high]
  exact all c.toFin

theorem mark_low : ((c &&& ~~~top) ||| (if marked then top else 0)) &&& ~~~top = c &&& ~~~top := by
  have all : ∀ (n : Fin 256) (marked : Bool),
      ((UInt8.ofFin n &&& ~~~0x80) ||| (if marked then 0x80 else 0)) &&& ~~~0x80 = UInt8.ofFin n &&& ~~~0x80 := by decide +kernel
  rw [high]
  exact all c.toFin marked

theorem mark_high : decide (((c &&& ~~~top) ||| (if marked then top else 0)) &&& top ≠ 0) = marked := by
  have all : ∀ (n : Fin 256) (marked : Bool),
      decide (((UInt8.ofFin n &&& ~~~0x80) ||| (if marked then 0x80 else 0)) &&& 0x80 ≠ 0) = marked := by decide +kernel
  rw [high]
  exact all c.toFin marked

theorem mark_free (small : c.toNat < 128) : c &&& ~~~top = c := by
  have all : ∀ n : Fin 256, (UInt8.ofFin n).toNat < 128 → UInt8.ofFin n &&& ~~~0x80 = UInt8.ofFin n := by decide +kernel
  rw [high]
  exact all c.toFin small

end Marked

-- A CONFIG_ACK is its three bytes and as many records as the third says, the mark apart.
theorem configAck_reads (buf : Bytes) (v : NodeConfigAckV1) : NodeConfigAckV1.deserialize buf = some v ↔
    ∃ rs : List Bytes, (∀ r ∈ rs, Framed configAckEntryHdrLen r) ∧ rs.length ≤ maxConfigAckEntries ∧
      buf = [v.op,v.persistStatus,UInt8.ofNat rs.length ||| (if v.moreFollows then configAckMoreFollows else 0)] ++ rs.flatten ∧
      v.entries = rs.map ConfigAckEntry.ofRecord := by
  constructor
  · intro read
    unfold NodeConfigAckV1.deserialize at read
    split at read; · cases read
    rename_i long
    dsimp only at read
    split at read; · cases read
    rename_i few
    obtain ⟨op,persist,count,body,rfl⟩ := three_bytes buf (Nat.not_lt.mp long)
    have announced : u8At ([op,persist,count] ++ body) 2 = count := rfl
    rw [announced] at few read
    rw [readConfigAckEntries_records] at read
    cases walked : readRecords configAckEntryHdrLen ([op,persist,count] ++ body) (count &&& ~~~configAckMoreFollows).toNat configAckHdrLen with
    | none =>
      rw [walked] at read
      cases read
    | some pair =>
      obtain ⟨rs,finish⟩ := pair
      rw [walked] at read
      dsimp only [Option.map_some] at read
      split at read
      · rename_i whole
        cases read
        subst whole
        obtain ⟨framed,counted,rfl⟩ := (records_iff configAckEntryHdrLen (by decide) [op,persist,count] body _ rs).mp walked
        refine ⟨rs,framed,by omega,?_,rfl⟩
        dsimp only
        rw [byte_counted _ rs.length counted,mark_joined configAckMoreFollows rfl count]
        rfl
      · cases read
  · rintro ⟨rs,framed,few,rfl,entries⟩
    have count := count_byte rs.length maxConfigAckEntries few (by decide)
    have bound : maxConfigAckEntries < 128 := by decide
    have free := mark_free configAckMoreFollows rfl (UInt8.ofNat rs.length) (by omega)
    have low := mark_low configAckMoreFollows rfl (UInt8.ofNat rs.length) v.moreFollows
    have mark := mark_high configAckMoreFollows rfl (UInt8.ofNat rs.length) v.moreFollows
    rw [free] at low mark
    have announced : u8At ([v.op,v.persistStatus,UInt8.ofNat rs.length ||| (if v.moreFollows then configAckMoreFollows else 0)] ++ rs.flatten) 2 =
        UInt8.ofNat rs.length ||| (if v.moreFollows then configAckMoreFollows else 0) := rfl
    have walked := (records_iff configAckEntryHdrLen (by decide)
      [v.op,v.persistStatus,UInt8.ofNat rs.length ||| (if v.moreFollows then configAckMoreFollows else 0)] rs.flatten rs.length rs).mpr ⟨framed,rfl,rfl⟩
    unfold NodeConfigAckV1.deserialize
    rw [if_neg (by rw [List.length_append]; change ¬3 + _ < 3; omega),announced]
    dsimp only
    rw [low,mark,count,if_neg (Nat.not_lt.mpr few),readConfigAckEntries_records]
    have read : readRecords configAckEntryHdrLen ([v.op,v.persistStatus,UInt8.ofNat rs.length |||
        (if v.moreFollows then configAckMoreFollows else 0)] ++ rs.flatten) rs.length configAckHdrLen = some (rs,_) := walked
    rw [read]
    dsimp only [Option.map_some]
    rw [if_pos rfl,← entries]
    rfl

theorem serialize_framed (e : ConfigEntry) (sized : e.value.length = maxParamValueLen) (short : e.len.toNat ≤ maxParamValueLen) :
    Framed configEntryHdrLen e.serialize := by
  refine ⟨by decide,?_⟩
  unfold ConfigEntry.serialize
  rw [List.length_append,List.length_append,List.length_take,sized,Nat.min_eq_left short]
  rfl

theorem ackSerialize_framed (e : ConfigAckEntry) (sized : e.value.length = maxParamValueLen) (short : e.len.toNat ≤ maxParamValueLen) :
    Framed configAckEntryHdrLen e.serialize := by
  refine ⟨by decide,?_⟩
  unfold ConfigAckEntry.serialize
  rw [List.length_append,List.length_append,List.length_take,sized,Nat.min_eq_left short]
  rfl

-- What a serialized entry is read back as.
theorem ofRecord_serialize (e : ConfigEntry) : ConfigEntry.ofRecord e.serialize = e.settled := by
  have id : u16At e.serialize 0 = e.paramId := u16Of_bytes e.paramId
  have body : e.serialize.drop configEntryHdrLen = e.value.take e.len.toNat := rfl
  unfold ConfigEntry.ofRecord
  rw [id,body]
  rfl

theorem ackRecord_serialize (e : ConfigAckEntry) : ConfigAckEntry.ofRecord e.serialize = e.settled := by
  have id : u16At e.serialize 0 = e.paramId := u16Of_bytes e.paramId
  have body : e.serialize.drop configAckEntryHdrLen = e.value.take e.len.toNat := rfl
  have status : u8At e.serialize 2 = (e.status &&& ~~~configStatusOverride) ||| (if e.isOverride then configStatusOverride else 0) := rfl
  unfold ConfigAckEntry.ofRecord
  rw [id,body,status,mark_low configStatusOverride rfl,mark_high configStatusOverride rfl]
  rfl

theorem record_split (headLen : Nat) (r : Bytes) (framed : Framed headLen r) (short : (u8At r (headLen - 1)).toNat ≤ maxParamValueLen) :
    (heldValue (r.drop headLen)).take (u8At r (headLen - 1)).toNat = r.drop headLen := by
  have length : (r.drop headLen).length = (u8At r (headLen - 1)).toNat := by
    rw [List.length_drop,framed.sized,Nat.add_sub_cancel_left]
  unfold heldValue
  rw [if_neg (by omega),List.take_append_of_le_length (Nat.le_of_eq length.symm),List.take_of_length_le (Nat.le_of_eq length)]

-- A record of at most four value bytes is written back as it was.
theorem serialize_ofRecord (r : Bytes) (framed : Framed configEntryHdrLen r) (short : (ConfigEntry.ofRecord r).len.toNat ≤ maxParamValueLen) :
    (ConfigEntry.ofRecord r).serialize = r := by
  have head : configEntryHdrLen = 4 := rfl
  have value := record_split configEntryHdrLen r framed short
  have sized := framed.sized
  obtain ⟨a,b,rest,rfl⟩ := two_bytes r (by omega)
  obtain ⟨c,d,body,rfl⟩ := two_bytes rest (by rw [List.length_append] at sized; change 2 + _ = _ at sized; omega)
  have id : u16Bytes (u16Of a b) = [a,b] := u16Bytes_of a b
  change u16Bytes (u16Of a b) ++ [c,d] ++ _ = _
  rw [id]
  exact congrArg ([a,b] ++ [c,d] ++ ·) value

theorem serialize_ackRecord (r : Bytes) (framed : Framed configAckEntryHdrLen r) (short : (ConfigAckEntry.ofRecord r).len.toNat ≤ maxParamValueLen) :
    (ConfigAckEntry.ofRecord r).serialize = r := by
  have head : configAckEntryHdrLen = 5 := rfl
  have value := record_split configAckEntryHdrLen r framed short
  have sized := framed.sized
  obtain ⟨a,b,rest,rfl⟩ := two_bytes r (by omega)
  obtain ⟨c,d,e,body,rfl⟩ := three_bytes rest (by rw [List.length_append] at sized; change 2 + _ = _ at sized; omega)
  have id : u16Bytes (u16Of a b) = [a,b] := u16Bytes_of a b
  have status := mark_joined configStatusOverride rfl c
  have free := mark_low configStatusOverride rfl c false
  simp only [Bool.false_eq_true,if_false,UInt8.or_zero] at free
  change u16Bytes (u16Of a b) ++ [(c &&& ~~~configStatusOverride) &&& ~~~configStatusOverride |||
    (if decide (c &&& configStatusOverride ≠ 0) then configStatusOverride else 0),d,e] ++ _ = _
  rw [id,free,status]
  exact congrArg ([a,b] ++ [c,d,e] ++ ·) value

theorem flat_map_self {α : Type} (rs : List Bytes) (read : Bytes → α) (write : α → Bytes) (back : ∀ r ∈ rs, write (read r) = r) :
    (rs.map read).flatMap write = rs.flatten := by
  induction rs with
  | nil => rfl
  | cons r rest ih =>
    rw [List.map_cons,List.flatMap_cons,List.flatten_cons,back r List.mem_cons_self,ih fun o member => back o (List.mem_cons_of_mem r member)]

theorem long_iff {α : Type} (entries : List α) (len : α → UInt8) :
    ¬entries.any (fun e => decide (maxParamValueLen < (len e).toNat)) = true ↔ ∀ e ∈ entries, (len e).toNat ≤ maxParamValueLen := by
  simp only [List.any_eq_true,decide_eq_true_eq,not_exists,not_and,Nat.not_lt]

-- The checks of serialize(), in the order it makes them.
theorem checked_iff (refused : Prop) [Decidable refused] (made : Bytes) (cap : Nat) (bytes : Bytes) :
    (if refused then .error .badLength else if cap < made.length then .error .bufferTooSmall
      else if maxSchemaPayload < made.length then .error .badLength else .ok made : Except Status Bytes) = .ok bytes ↔
      ¬refused ∧ bytes = made ∧ bytes.length ≤ cap ∧ bytes.length ≤ maxSchemaPayload := by
  constructor
  · intro written
    split at written; · cases written
    rename_i fits
    split at written; · cases written
    rename_i room
    split at written; · cases written
    rename_i short
    cases written
    exact ⟨fits,rfl,Nat.not_lt.mp room,Nat.not_lt.mp short⟩
  · rintro ⟨fits,rfl,room,short⟩
    rw [if_neg fits,if_neg (Nat.not_lt.mpr room),if_neg (Nat.not_lt.mpr short)]

theorem config_writes (v : NodeConfigV1) (cap : Nat) (bytes : Bytes) : v.serializeTo cap = .ok bytes ↔
    v.entries.length ≤ maxConfigEntries ∧ (∀ e ∈ v.entries, e.len.toNat ≤ maxParamValueLen) ∧
      bytes = [v.op,UInt8.ofNat v.entries.length] ++ v.entries.flatMap ConfigEntry.serialize ∧ bytes.length ≤ cap ∧
      bytes.length ≤ maxSchemaPayload := by
  unfold NodeConfigV1.serializeTo
  dsimp only
  rw [checked_iff,not_or,long_iff v.entries fun e => e.len,Nat.not_lt,and_assoc]

theorem configAck_writes (v : NodeConfigAckV1) (cap : Nat) (bytes : Bytes) : v.serializeTo cap = .ok bytes ↔
    v.entries.length ≤ maxConfigAckEntries ∧ (∀ e ∈ v.entries, e.len.toNat ≤ maxParamValueLen) ∧
      bytes = [v.op,v.persistStatus,UInt8.ofNat v.entries.length ||| (if v.moreFollows then configAckMoreFollows else 0)] ++
        v.entries.flatMap ConfigAckEntry.serialize ∧ bytes.length ≤ cap ∧ bytes.length ≤ maxSchemaPayload := by
  unfold NodeConfigAckV1.serializeTo
  dsimp only
  rw [checked_iff,not_or,long_iff v.entries fun e => e.len,Nat.not_lt,and_assoc]

theorem config_trip (v : HeldConfig) (cap : Nat) (bytes : Bytes) (written : v.config.serializeTo cap = .ok bytes) :
    NodeConfigV1.deserialize bytes = some {v.config with entries := v.config.entries.map ConfigEntry.settled} := by
  obtain ⟨few,small,rfl,_,_⟩ := (config_writes v.config cap bytes).mp written
  refine (config_reads _ _).mpr ⟨v.config.entries.map ConfigEntry.serialize,?_,?_,?_,?_⟩
  · intro r member
    obtain ⟨e,inside,rfl⟩ := List.mem_map.mp member
    exact serialize_framed e (v.sized e inside) (small e inside)
  · rw [List.length_map]
    exact few
  · rw [List.length_map,List.flatMap_def]
  · rw [List.map_map]
    exact List.map_congr_left fun e _ => (ofRecord_serialize e).symm

theorem configAck_trip (v : HeldConfigAck) (cap : Nat) (bytes : Bytes) (written : v.ack.serializeTo cap = .ok bytes) :
    NodeConfigAckV1.deserialize bytes = some {v.ack with entries := v.ack.entries.map ConfigAckEntry.settled} := by
  obtain ⟨few,small,rfl,_,_⟩ := (configAck_writes v.ack cap bytes).mp written
  refine (configAck_reads _ _).mpr ⟨v.ack.entries.map ConfigAckEntry.serialize,?_,?_,?_,?_⟩
  · intro r member
    obtain ⟨e,inside,rfl⟩ := List.mem_map.mp member
    exact ackSerialize_framed e (v.sized e inside) (small e inside)
  · rw [List.length_map]
    exact few
  · rw [List.length_map,List.flatMap_def]
  · rw [List.map_map]
    exact List.map_congr_left fun e _ => (ackRecord_serialize e).symm

theorem config_back (buf : Bytes) (v : NodeConfigV1) (read : NodeConfigV1.deserialize buf = some v)
    (small : ∀ e ∈ v.entries, e.len.toNat ≤ maxParamValueLen) (short : buf.length ≤ maxSchemaPayload) (cap : Nat) (room : buf.length ≤ cap) :
    v.serializeTo cap = .ok buf := by
  obtain ⟨rs,framed,few,cut,entries⟩ := (config_reads buf v).mp read
  have back : v.entries.flatMap ConfigEntry.serialize = rs.flatten := by
    rw [entries]
    refine flat_map_self rs _ _ fun r member => serialize_ofRecord r (framed r member) ?_
    exact small _ (by rw [entries]; exact List.mem_map_of_mem member)
  have count : v.entries.length = rs.length := by rw [entries,List.length_map]
  refine (config_writes v cap buf).mpr ⟨count ▸ few,small,?_,room,short⟩
  rw [count,back]
  exact cut

theorem configAck_back (buf : Bytes) (v : NodeConfigAckV1) (read : NodeConfigAckV1.deserialize buf = some v)
    (small : ∀ e ∈ v.entries, e.len.toNat ≤ maxParamValueLen) (short : buf.length ≤ maxSchemaPayload) (cap : Nat) (room : buf.length ≤ cap) :
    v.serializeTo cap = .ok buf := by
  obtain ⟨rs,framed,few,cut,entries⟩ := (configAck_reads buf v).mp read
  have back : v.entries.flatMap ConfigAckEntry.serialize = rs.flatten := by
    rw [entries]
    refine flat_map_self rs _ _ fun r member => serialize_ackRecord r (framed r member) ?_
    exact small _ (by rw [entries]; exact List.mem_map_of_mem member)
  have count : v.entries.length = rs.length := by rw [entries,List.length_map]
  refine (configAck_writes v cap buf).mpr ⟨count ▸ few,small,?_,room,short⟩
  rw [count,back]
  exact cut

-- What the codec lets through and the schema reads, by the same walk.
theorem config_agrees (buf : Bytes) : (NodeConfigV1.deserialize buf).isSome = true ↔
    checkVariablePayload .config buf = .ok ∧ (u8At buf 1).toNat ≤ maxConfigEntries := by
  have head : configEntryHdrLen = 4 := rfl
  have start : configHdrLen = 2 := rfl
  unfold NodeConfigV1.deserialize checkVariablePayload
  dsimp only
  rw [readConfigEntries_records,recordsEnd_records,start,head]
  split
  · simp
  · split
    · rename_i many
      simp only [Option.isSome_none,Bool.false_eq_true,false_iff,not_and]
      exact fun _ few => absurd few (Nat.not_le.mpr many)
    · rename_i few
      cases readRecords 4 buf (u8At buf 1).toNat 2 with
      | none => simp
      | some read =>
        obtain ⟨rs,finish⟩ := read
        dsimp only [Option.map_some]
        by_cases whole : finish = buf.length
        · rw [if_pos whole,if_pos (congrArg some whole)]
          exact ⟨fun _ => ⟨rfl,Nat.not_lt.mp few⟩,fun _ => rfl⟩
        · rw [if_neg whole,if_neg (fun same => whole (Option.some.inj same))]
          exact ⟨fun read => (by cases read),fun accepted => (by cases accepted.1)⟩

theorem configAck_agrees (buf : Bytes) : (NodeConfigAckV1.deserialize buf).isSome = true ↔
    checkVariablePayload .configAck buf = .ok ∧ (u8At buf 2 &&& ~~~configAckMoreFollows).toNat ≤ maxConfigAckEntries := by
  have head : configAckEntryHdrLen = 5 := rfl
  have start : configAckHdrLen = 3 := rfl
  unfold NodeConfigAckV1.deserialize checkVariablePayload
  dsimp only
  rw [readConfigAckEntries_records,recordsEnd_records,start,head]
  split
  · simp
  · split
    · rename_i many
      simp only [Option.isSome_none,Bool.false_eq_true,false_iff,not_and]
      exact fun _ few => absurd few (Nat.not_le.mpr many)
    · rename_i few
      cases readRecords 5 buf (u8At buf 2 &&& ~~~configAckMoreFollows).toNat 3 with
      | none => simp
      | some read =>
        obtain ⟨rs,finish⟩ := read
        dsimp only [Option.map_some]
        by_cases whole : finish = buf.length
        · rw [if_pos whole,if_pos (congrArg some whole)]
          exact ⟨fun _ => ⟨rfl,Nat.not_lt.mp few⟩,fun _ => rfl⟩
        · rw [if_neg whole,if_neg (fun same => whole (Option.some.inj same))]
          exact ⟨fun read => (by cases read),fun accepted => (by cases accepted.1)⟩

-- The two messages travel whole, and the codec's walk over their entries and the schema's are one.
theorem config_codec :
    ((∀ (v : HeldConfig) (cap : Nat) (bytes : Bytes), v.config.serializeTo cap = .ok bytes →
        NodeConfigV1.deserialize bytes = some {v.config with entries := v.config.entries.map ConfigEntry.settled}) ∧
      ∀ (v : HeldConfigAck) (cap : Nat) (bytes : Bytes), v.ack.serializeTo cap = .ok bytes →
        NodeConfigAckV1.deserialize bytes = some {v.ack with entries := v.ack.entries.map ConfigAckEntry.settled}) ∧
    ((∀ buf, (NodeConfigV1.deserialize buf).isSome = true ↔
        checkVariablePayload .config buf = .ok ∧ (u8At buf 1).toNat ≤ maxConfigEntries) ∧
      ∀ buf, (NodeConfigAckV1.deserialize buf).isSome = true ↔
        checkVariablePayload .configAck buf = .ok ∧ (u8At buf 2 &&& ~~~configAckMoreFollows).toNat ≤ maxConfigAckEntries) ∧
    ((∀ buf v, NodeConfigV1.deserialize buf = some v ↔ ∃ rs : List Bytes, (∀ r ∈ rs, Framed configEntryHdrLen r) ∧
        rs.length ≤ maxConfigEntries ∧ buf = [v.op,UInt8.ofNat rs.length] ++ rs.flatten ∧ v.entries = rs.map ConfigEntry.ofRecord) ∧
      ∀ buf v, NodeConfigAckV1.deserialize buf = some v ↔ ∃ rs : List Bytes, (∀ r ∈ rs, Framed configAckEntryHdrLen r) ∧
        rs.length ≤ maxConfigAckEntries ∧
        buf = [v.op,v.persistStatus,UInt8.ofNat rs.length ||| (if v.moreFollows then configAckMoreFollows else 0)] ++ rs.flatten ∧
        v.entries = rs.map ConfigAckEntry.ofRecord) ∧
    (∀ buf v cap, NodeConfigV1.deserialize buf = some v → (∀ e ∈ v.entries, e.len.toNat ≤ maxParamValueLen) →
        buf.length ≤ maxSchemaPayload → buf.length ≤ cap → v.serializeTo cap = .ok buf) ∧
      ∀ buf v cap, NodeConfigAckV1.deserialize buf = some v → (∀ e ∈ v.entries, e.len.toNat ≤ maxParamValueLen) →
        buf.length ≤ maxSchemaPayload → buf.length ≤ cap → v.serializeTo cap = .ok buf :=
  ⟨⟨config_trip,configAck_trip⟩,⟨config_agrees,configAck_agrees⟩,⟨config_reads,configAck_reads⟩,
    fun buf v cap read small short room => config_back buf v read small short cap room,
    fun buf v cap read small short room => configAck_back buf v read small short cap room⟩

-- An overridden result of two bytes with a value byte left behind its length, one of four bytes and a refused row's.
def resultAck : HeldConfigAck :=
  ⟨{op := configOpGetAll,moreFollows := true,persistStatus := PersistStatus.appliedNotPersisted.code,
    entries := [
      {paramId := 0x0102,status := ParamStatus.clamped.code,isOverride := true,ptype := ptypeU16,len := 2,value := [7,8,9,0]},
      {paramId := 0x1030,ptype := ptypeI32,len := 4,value := [0xFE,0xFF,0xFF,0xFF]},
      {paramId := 0x2001,status := ParamStatus.unknownParam.code}]},by simp [maxParamValueLen,zeroValue]⟩

def resultBytes : Bytes :=
  [0x03,0x01,0x83,0x02,0x01,0x82,0x02,2,7,8,0x30,0x10,0x00,0x05,4,0xFE,0xFF,0xFF,0xFF,0x01,0x20,0x01,0x01,0]

def resultRead : NodeConfigAckV1 := {resultAck.ack with entries := resultAck.ack.entries.map ConfigAckEntry.settled}

theorem config_codec_result :
    NodeConfigAckV1.deserialize resultBytes = some resultRead ∧ resultRead.serializeTo 193 = .ok resultBytes := by
  have read : NodeConfigAckV1.deserialize resultBytes = some resultRead := config_codec.1.2 resultAck 193 resultBytes (by decide)
  exact ⟨read,config_codec.2.2.2.2 resultBytes resultRead 193 read (by decide) (by decide) (by decide)⟩

def markedAck : HeldConfigAck := ⟨{entries := [{status := 0x85}]},by simp [zeroValue]⟩

-- Bit 7 of a status is the override mark on the wire, so a status that has it comes back without it.
theorem status_bit_seven_is_not_carried :
    ¬∀ (v : HeldConfigAck) (cap : Nat) (bytes : Bytes), v.ack.serializeTo cap = .ok bytes →
      ∃ w, NodeConfigAckV1.deserialize bytes = some w ∧ w.entries.map (fun e => e.status) = v.ack.entries.map fun e => e.status := by
  intro carried
  obtain ⟨w,read,same⟩ := carried markedAck 193 [0x02,0,1,0,0,0x05,0x01,0] (by decide)
  have other : NodeConfigAckV1.deserialize [0x02,0,1,0,0,0x05,0x01,0] = some {entries := [{status := 0x05}]} := by decide
  cases other.symm.trans read
  exact absurd same (by decide)

end LoraRan.Protocol
