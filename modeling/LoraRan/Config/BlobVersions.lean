import LoraRan.Config.BlobTrip
import LoraRan.Library.CheckedReads

namespace LoraRan.Config
open Protocol
open Library.LittleEndian (u8At u16At u32At u16Bytes u32Bytes)
open Library.CheckedReads

-- The same reader over a buffer, byte by byte: `none` is a read outside it.
def readRows (mem : Memory) (off : Nat) : Nat → Option (List (UInt16 × Value))
  | 0 => some []
  | n+1 => do
      let id ← readU16 mem off
      let value ← readU32 mem (off + 2)
      let rest ← readRows mem (off + 6) n
      return (id,value.toInt32) :: rest

def PhyBlob.decodeIn (mem : Memory) (len : Nat) : Option (Option PhyBlob) := do
  if len < 3 then return none
  else
    let version ← mem 0
    if version = 1 then
      let n := (← mem 2).toNat
      if phyGroupSize < n ∨ len ≠ 3 + n * 6 then return none
      else
        let flags ← mem 1
        return some {trialOpen := flags &&& 0x01 != 0,rows := ← readRows mem 3 n}
    else if version = phyBlobVersion ∧ 5 ≤ len then
      let n := (← mem 4).toNat
      if phyGroupSize < n ∨ len ≠ 5 + n * 6 then return none
      else
        let flags ← mem 1
        let ackRows ← readU16 mem 2
        return some {trialOpen := flags &&& 0x01 != 0,ackOwed := flags &&& 0x02 != 0,ackRows := ackRows,rows := ← readRows mem 5 n}
    else return none

-- A blob as the earlier format lays it: no mask, and no owed acknowledgement.
def blobV1 (flags : UInt8) (rows : List (UInt16 × Value)) : Bytes := [1,flags,UInt8.ofNat rows.length] ++ rows.flatMap rowBytes

theorem flatMap_rowBytes_length (rows : List (UInt16 × Value)) : (rows.flatMap rowBytes).length = rows.length * 6 := by
  induction rows with
  | nil => rfl
  | cons row rest ih =>
    rw [List.flatMap_cons,List.length_append,ih,List.length_cons]
    change 6 + rest.length * 6 = (rest.length + 1) * 6
    omega

theorem readRows_inside (bytes : Bytes) (off n : Nat) (inside : off + n * 6 ≤ bytes.length) :
    readRows (memoryOf bytes) off n = some ((List.range n).map fun i => rowAt bytes (off + i * 6)) := by
  induction n generalizing off with
  | zero => rfl
  | succ n ih =>
    unfold readRows
    rw [readU16_inside bytes off (by omega),readU32_inside bytes (off + 2) (by omega),ih (off + 6) (by omega)]
    rw [List.range_succ_eq_map,List.map_cons,List.map_map]
    have later : ∀ i, off + 6 + i * 6 = off + (i + 1) * 6 := by omega
    simp only [later]
    rfl

-- The layout of either version, `hdr` bytes long ahead of its rows.
def bodyRows (bytes : Bytes) (hdr : Nat) : Option (List (UInt16 × Value)) :=
  if phyGroupSize < (u8At bytes (hdr - 1)).toNat ∨ bytes.length ≠ hdr + (u8At bytes (hdr - 1)).toNat * 6 then none
  else some ((List.range (u8At bytes (hdr - 1)).toNat).map fun i => rowAt bytes (hdr + i * 6))

theorem decode_eq (bytes : Bytes) : PhyBlob.decode bytes =
    if bytes.length < 3 then none
    else if u8At bytes 0 = 1 then (bodyRows bytes 3).map fun rows => {trialOpen := u8At bytes 1 &&& 0x01 != 0,rows := rows}
    else if u8At bytes 0 = phyBlobVersion ∧ 5 ≤ bytes.length then (bodyRows bytes 5).map fun rows =>
      {trialOpen := u8At bytes 1 &&& 0x01 != 0,ackOwed := u8At bytes 1 &&& 0x02 != 0,ackRows := u16At bytes 2,rows := rows}
    else none := by
  have at_ : ∀ hdr i, hdr + 2 + i * 6 = hdr + i * 6 + 2 := by omega
  unfold PhyBlob.decode bodyRows rowAt
  simp only [at_]

-- Nothing past the length is read, and what is read is what decode() makes of the bytes.
theorem decodeIn_inside (bytes : Bytes) : PhyBlob.decodeIn (memoryOf bytes) bytes.length = some (PhyBlob.decode bytes) := by
  rw [decode_eq]
  unfold PhyBlob.decodeIn bodyRows
  split
  · rfl
  · rename_i long
    rw [memoryOf_inside bytes 0 (by omega),memoryOf_inside bytes 1 (by omega),memoryOf_inside bytes 2 (by omega)]
    simp only [Option.bind_eq_bind,Option.bind_some]
    split
    · split
      · rfl
      · rename_i whole
        obtain ⟨_,exact_⟩ := not_or.mp whole
        rw [readRows_inside bytes 3 _ (Nat.le_of_eq (not_not.mp exact_).symm)]
        rfl
    · split
      · rename_i second
        rw [memoryOf_inside bytes 4 (by omega),readU16_inside bytes 2 (by omega)]
        simp only [Option.bind_some]
        split
        · rfl
        · rename_i whole
          obtain ⟨_,exact_⟩ := not_or.mp whole
          rw [readRows_inside bytes 5 _ (Nat.le_of_eq (not_not.mp exact_).symm)]
          rfl
      · rfl

theorem encode_cap (b : PhyBlob) (cap : Nat) (small : b.rows.length ≤ phyGroupSize) (room : 5 + b.rows.length * 6 ≤ cap) :
    b.encode cap = b.encode phyBlobMax := by
  have most : phyBlobMax = 5 + phyGroupSize * 6 := rfl
  have fits : ∀ c, 5 + b.rows.length * 6 ≤ c → ¬(phyGroupSize < b.rows.length ∨ c < 5 + b.rows.length * 6) := by
    intro c enough
    omega
  unfold PhyBlob.encode
  rw [if_neg (fits cap room),if_neg (fits phyBlobMax (by omega))]

theorem decode_v1 (flags : UInt8) (rows : List (UInt16 × Value)) (small : rows.length ≤ phyGroupSize) :
    PhyBlob.decode (blobV1 flags rows) = some {trialOpen := flags &&& 0x01 != 0,rows := rows} := by
  have six : phyGroupSize = 6 := rfl
  have count : (UInt8.ofNat rows.length).toNat = rows.length := UInt8.toNat_ofNat_of_lt' (by
    have bound : UInt8.size = 256 := rfl
    omega)
  have length : (blobV1 flags rows).length = 3 + rows.length * 6 := by
    unfold blobV1
    rw [List.length_append,flatMap_rowBytes_length]
    rfl
  have announced : u8At (blobV1 flags rows) (3 - 1) = UInt8.ofNat rows.length := rfl
  have read : (List.range rows.length).map (fun i => rowAt (blobV1 flags rows) (3 + i * 6)) = rows :=
    rows_read [1,flags,UInt8.ofNat rows.length] rows
  have version : u8At (blobV1 flags rows) 0 = 1 := rfl
  rw [decode_eq,if_neg (by omega),if_pos version]
  unfold bodyRows
  rw [announced,count,if_neg (by omega),read]
  rfl

-- What is written is read back, in this format or the one before it, and what is read can be written again.
theorem phy_blob_survives :
    (∀ (b : PhyBlob) (cap : Nat), b.rows.length ≤ phyGroupSize → 5 + b.rows.length * 6 ≤ cap →
      ∃ bytes, b.encode cap = some bytes ∧ PhyBlob.decode bytes = some b) ∧
    (∀ (flags : UInt8) (rows : List (UInt16 × Value)), rows.length ≤ phyGroupSize →
      PhyBlob.decode (blobV1 flags rows) = some {trialOpen := flags &&& 0x01 != 0,ackOwed := false,ackRows := 0,rows := rows}) ∧
    (∀ (bytes : Bytes) (b : PhyBlob), PhyBlob.decode bytes = some b →
      ∃ again, b.encode phyBlobMax = some again ∧ PhyBlob.decode again = some b) ∧
    ∀ bytes : Bytes, PhyBlob.decodeIn (memoryOf bytes) bytes.length = some (PhyBlob.decode bytes) := by
  refine ⟨?_,decode_v1,?_,decodeIn_inside⟩
  · intro b cap small room
    obtain ⟨bytes,encoded⟩ := b.encode_some small
    exact ⟨bytes,(encode_cap b cap small room).trans encoded,(b.decode_of_encode bytes encoded).1⟩
  · intro bytes b decoded
    obtain ⟨again,encoded⟩ := b.encode_some (b.decode_small bytes decoded)
    exact ⟨again,encoded,(b.decode_of_encode again encoded).1⟩

theorem phy_blob_survives_open_trial :
    ∃ again, PhyBlob.encode {trialOpen := true,rows := [(7,-3)]} phyBlobMax = some again ∧
      PhyBlob.decode again = some {trialOpen := true,rows := [(7,-3)]} :=
  phy_blob_survives.2.2.1 (blobV1 1 [(7,-3)]) {trialOpen := true,rows := [(7,-3)]} (by decide)

end LoraRan.Config
