import GoodNet.Lib.ReflectedCrc
import GoodNet.StunMessage
set_option autoImplicit false

/-! `compute_crc32` against the CRC-32 that takes the message a bit at a time. The table holds
what eight steps make of a register's low byte. -/

namespace GoodNet.Ice
open Codec

def crc32Polynomial : BitVec 32 := 0xEDB88320#32

/-- The bits of a message as the check takes them, the lowest of a byte first. -/
def messageBits (data : Bytes) : List Bool :=
  data.flatMap (fun b => (List.range 8).map b.toBitVec.getLsbD)

/-- CRC-32 with a register of ones before the first bit, and all of it turned over at the end. -/
def bitwiseCrc32 (data : Bytes) : UInt32 :=
  UInt32.ofBitVec
    (ReflectedCrc.crc crc32Polynomial 0xFFFFFFFF#32 0xFFFFFFFF#32 (messageBits data))

theorem lowBit_ne_zero (crc : UInt32) : (crc &&& 1 ≠ 0) ↔ crc.toBitVec.getLsbD 0 = true := by
  have hbits : (crc &&& 1).toBitVec = (BitVec.ofBool (crc.toBitVec.getLsbD 0)).setWidth 32 := by
    rw [UInt32.toBitVec_and]
    exact BitVec.and_one_eq_setWidth_ofBool_getLsbD
  rw [ne_eq,← UInt32.toBitVec_inj,hbits]
  cases crc.toBitVec.getLsbD 0 <;> simp

/-- The inner loop of `init_crc32_table` is steps of the register. -/
theorem tableLoop_toBitVec (rounds : List Nat) (crc : UInt32) :
    (rounds.foldl (fun (crc : UInt32) _ =>
      (crc >>> 1) ^^^ (if crc &&& 1 ≠ 0 then 0xEDB88320 else 0)) crc).toBitVec =
      ReflectedCrc.shiftSteps crc32Polynomial rounds.length crc.toBitVec := by
  induction rounds generalizing crc with
  | nil => rfl
  | cons j rounds ih =>
    have hstep : ((crc >>> 1) ^^^ (if crc &&& 1 ≠ 0 then 0xEDB88320 else 0)).toBitVec =
        ReflectedCrc.shiftStep crc32Polynomial crc.toBitVec := by
      rw [UInt32.toBitVec_xor,ReflectedCrc.shiftStep,apply_ite UInt32.toBitVec,
        if_congr (lowBit_ne_zero crc) rfl rfl]
      rfl
    rw [List.foldl_cons,ih,hstep,List.length_cons,ReflectedCrc.shiftSteps]

theorem crc32Entry_toBitVec (i : UInt32) :
    (crc32Entry i).toBitVec = ReflectedCrc.shiftSteps crc32Polynomial 8 i.toBitVec := by
  rw [crc32Entry,tableLoop_toBitVec,List.length_range]

theorem crc32Table_getD {i : UInt32} (h : i.toNat < 256) :
    crc32Table.getD i.toNat 0 = crc32Entry i := by
  simp [crc32Table,h]

theorem maskedByte_lt (x : UInt32) : (x &&& 0xFF).toNat < 256 := by
  rw [UInt32.toNat_and]
  exact Nat.lt_succ_of_le Nat.and_le_right

theorem maskedByte_toBitVec (x : UInt32) :
    (x &&& 0xFF).toBitVec = ReflectedCrc.low 8 x.toBitVec := by
  apply BitVec.eq_of_toNat_eq
  have hmask : (x &&& 0xFF).toNat = x.toNat%256 := by
    rw [UInt32.toNat_and]
    exact Nat.and_two_pow_sub_one_eq_mod x.toNat 8
  rw [UInt32.toNat_toBitVec,hmask,ReflectedCrc.low,BitVec.toNat_setWidth,BitVec.toNat_setWidth,
    UInt32.toNat_toBitVec]
  omega

/-- A byte from the table is eight bits of the message. -/
theorem crc32Step_toBitVec (crc : UInt32) (b : UInt8) :
    (crc32Step crc b).toBitVec =
      ReflectedCrc.feedBits crc32Polynomial crc.toBitVec
        ((List.range 8).map b.toBitVec.getLsbD) := by
  have hbyte : (crc ^^^ b.toUInt32).toBitVec = crc.toBitVec ^^^ b.toBitVec.setWidth 32 := rfl
  have hshift : (crc ^^^ b.toUInt32).toBitVec >>> 8 = crc.toBitVec >>> 8 := by
    rw [hbyte,BitVec.ushiftRight_xor_distrib]
    have hnone : b.toBitVec.setWidth 32 >>> 8 = 0#32 := by
      apply BitVec.eq_of_toNat_eq
      have hb := b.toNat_lt
      simp
      omega
    rw [hnone,BitVec.xor_zero]
  rw [ReflectedCrc.feedBits_eq _ _ (by simp),ReflectedCrc.word_bits,← hbyte,List.length_map,
    List.length_range,ReflectedCrc.shiftSteps_eq,hshift,← maskedByte_toBitVec,
    ← crc32Entry_toBitVec,crc32Step,crc32Table_getD (maskedByte_lt _),UInt32.toBitVec_xor]
  rfl

theorem crc32Fold_toBitVec (data : Bytes) (crc : UInt32) :
    (data.foldl crc32Step crc).toBitVec =
      ReflectedCrc.feedBits crc32Polynomial crc.toBitVec (messageBits data) := by
  induction data generalizing crc with
  | nil => rfl
  | cons b data ih =>
    rw [List.foldl_cons,ih,crc32Step_toBitVec,← ReflectedCrc.feedBits_append]
    rfl

theorem computeCrc32_eq_bitwise (data : Bytes) : computeCrc32 data = bitwiseCrc32 data := by
  apply UInt32.toBitVec_inj.1
  rw [computeCrc32,UInt32.toBitVec_xor,crc32Fold_toBitVec]
  rfl

end GoodNet.Ice
