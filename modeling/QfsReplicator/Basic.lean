import Mathlib.Data.List.Basic
import Mathlib.Algebra.Order.Ring.Int

/-! # Sizes, status codes and machine integers

The constants `Replicator.cc` computes with, the (negated) `errno` values it reports, and the
32-bit wrap of C++ `int` arithmetic. `CHECKSUM_BLOCKSIZE`, `CHUNKSIZE` and `EBADCKSUM` are
declared in QFS headers outside `src/`; their values are the ones those headers give.
-/

namespace QfsReplicator

/-- `CHECKSUM_BLOCKSIZE` (`kfsio/checksum.h`): 64 KiB. -/
def CHECKSUM_BLOCKSIZE : Int := 65536

theorem CHECKSUM_BLOCKSIZE_eq : CHECKSUM_BLOCKSIZE = 65536 := rfl

/-- `CHUNKSIZE` (`common/kfstypes.h`): 64 MiB. -/
def CHUNKSIZE : Int := 67108864

/-- `kDefaultReplicationReadSize`: `1 << 20` rounded up to a whole checksum block. -/
def kDefaultReplicationReadSize : Int :=
  (2 ^ 20 + CHECKSUM_BLOCKSIZE - 1) / CHECKSUM_BLOCKSIZE * CHECKSUM_BLOCKSIZE

/-- `kChunkHeaderSize` of `ReplicatorImpl::Run`: the least buffer request, `16 << 10`. -/
def kChunkHeaderSize : Int := 16384

theorem kDefaultReplicationReadSize_eq : kDefaultReplicationReadSize = 1048576 := by
  decide

theorem checksumBlock_dvd_default : CHECKSUM_BLOCKSIZE ∣ kDefaultReplicationReadSize := by
  decide

/-! ## Status codes

The replicator reports errors as negated `errno` values (Linux numbering). -/

def EIO : Int := 5
def ENOMEM : Int := 12
def EFAULT : Int := 14
def EEXIST : Int := 17
def EINVAL : Int := 22
def ETIMEDOUT : Int := 110
def EHOSTUNREACH : Int := 113
def ECANCELED : Int := 125
/-- QFS's own code for a source-side checksum mismatch (`common/kfstypes.h`). -/
def EBADCKSUM : Int := 1002

/-! ## 32-bit `int` -/

/-- A value a C++ `int` can hold. -/
def InInt32 (x : Int) : Prop := -2 ^ 31 ≤ x ∧ x < 2 ^ 31

instance (x : Int) : Decidable (InInt32 x) := inferInstanceAs (Decidable (_ ∧ _))

/-- The two's-complement wrap a 32-bit `int` result is stored with. -/
def int32 (x : Int) : Int := (x + 2 ^ 31) % 2 ^ 32 - 2 ^ 31

theorem int32_of_inInt32 {x : Int} (h : InInt32 x) : int32 x = x := by
  unfold InInt32 at h
  unfold int32
  rw [Int.emod_eq_of_lt (by omega) (by omega)]
  omega

/-! ## Byte ranges -/

/-- The bytes `[o, o + n)` of `src`. -/
def slice (src : List UInt8) (o n : Int) : List UInt8 := (src.drop o.toNat).take n.toNat

/-- `(n + CHECKSUM_BLOCKSIZE - 1) / CHECKSUM_BLOCKSIZE`: the checksum blocks `n` bytes span. -/
def numBlocks (n : Int) : Int := (n + CHECKSUM_BLOCKSIZE - 1) / CHECKSUM_BLOCKSIZE

end QfsReplicator
