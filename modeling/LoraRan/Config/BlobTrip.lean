import LoraRan.Config.PhyBlob

namespace LoraRan.Config
open Protocol
open Library.LittleEndian (u8At u16At u32At u16Bytes u32Bytes u16Of_bytes u32Of_bytes u8At_append_right)

def rowBytes (row : UInt16 × Value) : Bytes := u16Bytes row.1 ++ u32Bytes row.2.toUInt32

def rowAt (bytes : Bytes) (off : Nat) : UInt16 × Value := (u16At bytes off,(u32At bytes (off + 2)).toInt32)

theorem rowAt_front (row : UInt16 × Value) (rest : Bytes) : rowAt (rowBytes row ++ rest) 0 = row := by
  unfold rowAt rowBytes u16At u32At u16Bytes u32Bytes
  simp only [List.cons_append,List.nil_append,Library.LittleEndian.u8At_cons_zero,Library.LittleEndian.u8At_cons_succ,Nat.zero_add]
  rw [u16Of_bytes,u32Of_bytes]
  rfl

theorem rowAt_append (front rest : Bytes) (off : Nat) (behind : front.length ≤ off) : rowAt (front ++ rest) off = rowAt rest (off - front.length) := by
  have at_ : ∀ k, u8At (front ++ rest) (off + k) = u8At rest (off - front.length + k) := by
    intro k
    rw [u8At_append_right front rest (off + k) (by omega)]
    congr 1
    omega
  have first := at_ 0
  unfold rowAt u16At u32At
  simp only [Nat.add_zero,Nat.add_assoc,at_] at first ⊢
  rw [first]

-- Rows written one behind the other are read back in order.
theorem rows_read (front : Bytes) (rows : List (UInt16 × Value)) :
    (List.range rows.length).map (fun i => rowAt (front ++ rows.flatMap rowBytes) (front.length + i * 6)) = rows := by
  induction rows generalizing front with
  | nil => rfl
  | cons row rest ih =>
      have later := ih (front ++ rowBytes row)
      have wide : (rowBytes row).length = 6 := rfl
      rw [List.length_cons,List.range_succ_eq_map,List.map_cons,List.map_map,List.flatMap_cons]
      congr 1
      · rw [rowAt_append front _ _ (by omega)]
        simp only [Nat.zero_mul,Nat.add_zero,Nat.sub_self]
        exact rowAt_front row _
      · refine Eq.trans ?_ later
        refine List.map_congr_left fun i _ => ?_
        simp only [Function.comp,List.append_assoc,List.length_append,wide]
        congr 1
        omega

theorem PhyBlob.encode_some (b : PhyBlob) (small : b.rows.length ≤ phyGroupSize) : ∃ bytes, b.encode phyBlobMax = some bytes := by
  unfold PhyBlob.encode
  rw [if_neg (by simp only [phyBlobMax,phyGroupSize] at *; omega)]
  exact ⟨_,rfl⟩

theorem PhyBlob.decode_of_encode (b : PhyBlob) (bytes : Bytes) (encoded : b.encode phyBlobMax = some bytes) :
    PhyBlob.decode bytes = some b ∧ bytes.length ≤ phyBlobMax ∧ bytes.length ≠ 0 := by
  unfold PhyBlob.encode at encoded
  split at encoded
  · cases encoded
  · rename_i fits
    cases encoded
    have small : b.rows.length ≤ 6 := by
      simp only [phyGroupSize] at fits
      omega
    have counted : (UInt8.ofNat b.rows.length).toNat = b.rows.length := by
      rw [UInt8.toNat_ofNat']
      omega
    let flags : UInt8 := (if b.trialOpen then 0x01 else 0) ||| (if b.ackOwed then 0x02 else 0)
    let front : Bytes := [phyBlobVersion,flags] ++ u16Bytes b.ackRows ++ [UInt8.ofNat b.rows.length]
    have rowsLength : (b.rows.flatMap rowBytes).length = b.rows.length * 6 := by
      induction b.rows with
      | nil => rfl
      | cons row rest ih =>
          rw [List.flatMap_cons,List.length_append,ih,List.length_cons]
          change 6 + rest.length * 6 = (rest.length + 1) * 6
          omega
    have long : (front ++ b.rows.flatMap rowBytes).length = 5 + b.rows.length * 6 := by
      rw [List.length_append,rowsLength]
      rfl
    have opened : (flags &&& 0x01 != 0) = b.trialOpen := by
      cases open_ : b.trialOpen <;> cases owed : b.ackOwed <;> simp [flags,open_,owed] <;> decide
    have owed : (flags &&& 0x02 != 0) = b.ackOwed := by
      cases open_ : b.trialOpen <;> cases owed : b.ackOwed <;> simp [flags,open_,owed] <;> decide
    have rows := rows_read front b.rows
    change PhyBlob.decode (front ++ b.rows.flatMap rowBytes) = some b ∧ _ ∧ _
    refine ⟨?_,?_,?_⟩
    · unfold PhyBlob.decode
      have count : (u8At (front ++ b.rows.flatMap rowBytes) (5 - 1)).toNat = b.rows.length := counted
      have version : u8At (front ++ b.rows.flatMap rowBytes) 0 = phyBlobVersion := rfl
      have flagged : u8At (front ++ b.rows.flatMap rowBytes) 1 = flags := rfl
      have ackRows : u16At (front ++ b.rows.flatMap rowBytes) 2 = b.ackRows := u16Of_bytes b.ackRows
      rw [if_neg (by rw [long]; omega)]
      dsimp only
      rw [version,if_neg (by decide),if_pos ⟨rfl,by rw [long]; omega⟩,count,if_neg (by rw [long]; simp only [phyGroupSize]; omega),flagged,ackRows,opened,owed]
      have same : (List.range b.rows.length).map (fun i =>
          (u16At (front ++ b.rows.flatMap rowBytes) (5 + i * 6),(u32At (front ++ b.rows.flatMap rowBytes) (5 + 2 + i * 6)).toInt32)) = b.rows := by
        refine Eq.trans ?_ rows
        refine List.map_congr_left fun i _ => ?_
        unfold rowAt
        change (_,_) = (u16At _ (5 + i * 6),(u32At _ (5 + i * 6 + 2)).toInt32)
        rw [show 5 + 2 + i * 6 = 5 + i * 6 + 2 by omega]
      rw [same]
      rfl
    · change (front ++ b.rows.flatMap rowBytes).length ≤ phyBlobMax
      rw [long]
      simp only [phyBlobMax,phyGroupSize]
      omega
    · change (front ++ b.rows.flatMap rowBytes).length ≠ 0
      rw [long]
      omega

-- What decodes is small enough to be written again.
theorem PhyBlob.decode_small (bytes : Bytes) (b : PhyBlob) (decoded : PhyBlob.decode bytes = some b) : b.rows.length ≤ phyGroupSize := by
  unfold PhyBlob.decode at decoded
  split at decoded
  · cases decoded
  · dsimp only at decoded
    split at decoded
    · split at decoded
      · cases decoded
      · rename_i fits
        cases decoded
        rw [List.length_map,List.length_range]
        omega
    · split at decoded
      · split at decoded
        · cases decoded
        · rename_i fits
          cases decoded
          rw [List.length_map,List.length_range]
          omega
      · cases decoded

end LoraRan.Config
