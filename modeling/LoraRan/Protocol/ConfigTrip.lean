import LoraRan.Protocol.ConfigCodec

namespace LoraRan.Protocol

-- An entry as the packer leaves it: at most four bytes, the unused ones zero.
structure Packed (e : ConfigEntry) : Prop where
  short : e.len.toNat ≤ maxParamValueLen
  padded : e.value = e.value.take e.len.toNat ++ List.replicate (maxParamValueLen - e.len.toNat) 0
  held : e.len.toNat ≤ e.value.length

theorem pack_packed (id : UInt16) (ptype : UInt8) (raw : UInt32) : Packed (ConfigEntry.pack {} id ptype raw) := by
  have widths : paramValueLen ptype = 0 ∨ paramValueLen ptype = 1 ∨ paramValueLen ptype = 2 ∨ paramValueLen ptype = 4 := by
    unfold paramValueLen
    split
    · exact .inr (.inl rfl)
    · split
      · exact .inr (.inr (.inl rfl))
      · split
        · exact .inr (.inr (.inr rfl))
        · exact .inl rfl
  unfold ConfigEntry.pack
  rcases widths with none_ | one | two | four
  · rw [none_]
    exact ⟨by change 0 ≤ 4; omega,rfl,by change 0 ≤ 4; omega⟩
  · rw [one]
    exact ⟨by change 1 ≤ 4; omega,rfl,by change 1 ≤ 4; omega⟩
  · rw [two]
    exact ⟨by change 2 ≤ 4; omega,rfl,by change 2 ≤ 4; omega⟩
  · rw [four]
    exact ⟨by change 4 ≤ 4; omega,rfl,by change 4 ≤ 4; omega⟩

theorem Packed.sized {e : ConfigEntry} (packed : Packed e) : e.value.length = maxParamValueLen := by
  have short := packed.short
  have padded := congrArg List.length packed.padded
  rw [List.length_append,List.length_take,List.length_replicate,Nat.min_eq_left packed.held] at padded
  omega

theorem Packed.settled {e : ConfigEntry} (packed : Packed e) : e.settled = e := by
  have length : (e.value.take e.len.toNat).length = e.len.toNat := by rw [List.length_take,Nat.min_eq_left packed.held]
  have value : heldValue (e.value.take e.len.toNat) = e.value := by
    unfold heldValue
    rw [length,if_neg (Nat.not_lt.mpr packed.short),← packed.padded]
  unfold ConfigEntry.settled
  rw [value]

theorem ConfigEntry.serialize_length (e : ConfigEntry) (packed : Packed e) : e.serialize.length = configEntryHdrLen + e.len.toNat :=
  (serialize_framed e packed.sized packed.short).sized

theorem serializeTo_serialize (v : NodeConfigV1) (bytes : Bytes) (written : v.serialize = some bytes) :
    v.serializeTo maxSchemaPayload = .ok bytes := by
  unfold NodeConfigV1.serialize at written
  unfold NodeConfigV1.serializeTo
  split at written
  · cases written
  · rename_i fits
    dsimp only at written
    split at written
    · cases written
    · rename_i short
      cases written
      rw [if_neg fits]
      dsimp only
      rw [if_neg short,if_neg short]

-- A CONFIG that could be written is read back as it was.
theorem nodeConfig_trip (v : NodeConfigV1) (packed : ∀ e ∈ v.entries, Packed e) (bytes : Bytes) (written : v.serialize = some bytes) :
    NodeConfigV1.deserialize bytes = some v := by
  have trip := config_trip ⟨v,fun e member => (packed e member).sized⟩ maxSchemaPayload bytes (serializeTo_serialize v bytes written)
  have settled : v.entries.map ConfigEntry.settled = v.entries :=
    (List.map_congr_left fun e member => (packed e member).settled).trans (List.map_id v.entries)
  rw [settled] at trip
  exact trip

end LoraRan.Protocol
