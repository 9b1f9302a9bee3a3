import Smurf.DataFile.Parts
import Smurf.Library.FixedRecords

/-! Reading data files back.
A record has all of its packet, and all records have one length, so the packets can be read
from a file, also from one that is cut short.
-/

namespace Smurf

open ByteMemory Chunks FixedRecords

-----------------------------------------------------------------------------------------
-- Values of four bytes
-----------------------------------------------------------------------------------------

theorem toInt32_word_littleEndian (value : Int32)
    : (UInt32.ofNat
        (word (fun k => ((List.range 4).map (littleEndian value.toUInt32.toNat)).getD k 0) 0 4)
        ).toInt32
      = value := by
  have bound : value.toUInt32.toNat < 2 ^ 32 := value.toUInt32.toNat_lt
  have number
      : word (fun k => ((List.range 4).map (littleEndian value.toUInt32.toNat)).getD k 0) 0 4
        = value.toUInt32.toNat := by
    simp [word, littleEndian, List.range_succ]
    omega
  rw [number, UInt32.ofNat_toNat, Int32.toInt32_toUInt32]

theorem littleEndian_toInt32_word (bytes : List UInt8) (length : bytes.length = 4)
    : (List.range 4).map
        (littleEndian
          (UInt32.ofNat (word (fun k => bytes.getD k 0) 0 4)).toInt32.toUInt32.toNat)
      = bytes := by
  obtain ⟨a, b, c, d, rfl⟩ : ∃ a b c d, bytes = [a, b, c, d] := by
    match bytes, length with
    | [a, b, c, d], _ => exact ⟨a, b, c, d, rfl⟩
  have ha := a.toNat_lt
  have hb := b.toNat_lt
  have hc := c.toNat_lt
  have hd := d.toNat_lt
  have number
      : word (fun k => [a, b, c, d].getD k 0) 0 4
        = a.toNat + 256 * b.toNat + 256 ^ 2 * c.toNat + 256 ^ 3 * d.toNat := by
    simp [word]
    omega
  have small : a.toNat + 256 * b.toNat + 256 ^ 2 * c.toNat + 256 ^ 3 * d.toNat < UInt32.size := by
    rw [UInt32.size]
    omega
  rw [number, UInt32.toUInt32_toInt32, UInt32.toNat_ofNat_of_lt' small]
  simp [littleEndian, List.range_succ, ← UInt8.toNat_inj]
  omega

/-- An `int32_t` as the host keeps it. -/
def int32Codec : Codec Int32 UInt8 where
  size := 4
  encode value := (List.range 4).map (littleEndian value.toUInt32.toNat)
  decode bytes := (UInt32.ofNat (word (fun k => bytes.getD k 0) 0 4)).toInt32
  length_encode _ := rfl
  decode_encode := toInt32_word_littleEndian
  encode_decode := littleEndian_toInt32_word

-----------------------------------------------------------------------------------------
-- Packets
-----------------------------------------------------------------------------------------

/-- A packet as `writeToFile` writes it. -/
def Packet.codec : Codec Packet UInt8 :=
  ((Codec.vector smurfHeaderLength Codec.single).pair
    (Codec.vector smurfSamples int32Codec)).renamed
    {
      toFun parts := ⟨parts.1, parts.2⟩
      invFun packet := (packet.header, packet.payload)
      left_inv _ := rfl
      right_inv _ := rfl
    }

theorem Packet.record_eq_encode (packet : Packet) : packet.record = Packet.codec.encode packet := by
  have whole
      : Packet.codec.encode packet
        = Codec.single.writeAll (List.ofFn packet.header)
          ++ int32Codec.writeAll (List.ofFn packet.payload) := by
    simp only [Packet.codec, Codec.renamed, Codec.pair, Codec.vector, Equiv.coe_fn_symm_mk]
  have payload : packet.payloadBytes = int32Codec.writeAll (List.ofFn packet.payload) := by
    rw [Packet.payloadBytes, Codec.writeAll, int32Codec]
  rw [whole, Codec.writeAll_single, Packet.record, payload]

theorem records_eq_writeAll (packets : List Packet)
    : records packets = Packet.codec.writeAll packets :=
  List.flatMap_congr (fun packet _ => packet.record_eq_encode)

/-- The packets in the bytes of a data file: those of its whole records. -/
def readPackets (bytes : List UInt8) : List Packet :=
  Packet.codec.readAll bytes

/-- Any bytes that are whole records are those of the packets read from them. -/
theorem records_readPackets {bytes : List UInt8} (whole : 2240 ∣ bytes.length)
    : records (readPackets bytes) = bytes := by
  rw [records_eq_writeAll]
  exact Packet.codec.writeAll_readAll whole

/-- A file of two records of zeros. -/
theorem records_readPackets_zeros
    : records (readPackets (List.replicate 4480 0)) = List.replicate 4480 0 :=
  records_readPackets ⟨2, List.length_replicate⟩

end Smurf
