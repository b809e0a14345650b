import QfsReplicator.Model.Admission
import Mathlib.Data.Nat.Prime.Basic
import Mathlib.Tactic.IntervalCases

/-! # Read sizes and the layout of recovered writes

`GetReadSize` returns a whole number of checksum blocks, at least one, once
`sRSReaderMaxReadSize` is a multiple of the block size (`SetParameters` rounds it up to one).
The stripe size of a valid recovery op divides `CHUNKSIZE`, a power of two, so its least
common multiple with the block size is the larger of the two and never exceeds a read size
that is larger than the stripe.

The writes of a recovery sit at contiguous offsets from 0. `Lays` states that layout the way
the writes are appended; `ExactRecovery` states it the way a reader checks a finished recovery,
and `Lays.exactRecovery` derives the second from the first.
-/

namespace QfsReplicator

/-! ## `GetReadSize` -/

/-- The `int` wrap keeps a multiple of the block size one: `2 ^ 32` is a multiple too. -/
theorem dvd_int32 {x : Int} (h : CHECKSUM_BLOCKSIZE ∣ x) : CHECKSUM_BLOCKSIZE ∣ int32 x := by
  have h31 : CHECKSUM_BLOCKSIZE ∣ (2 : Int) ^ 31 := ⟨32768, by decide⟩
  have h32 : CHECKSUM_BLOCKSIZE ∣ (2 : Int) ^ 32 := ⟨65536, by decide⟩
  unfold int32
  rw [Int.emod_def]
  exact Int.dvd_sub (Int.dvd_sub (Int.dvd_add h h31) (Int.dvd_trans h32 (Int.dvd_mul_right _ _))) h31

/-- A stripe size `Replicator::Run` accepts is a power of two: it divides `CHUNKSIZE`. -/
theorem stripeSize_pow {op : ReplicateChunkOp} (h : rsValid op = true) :
    ∃ j ≤ 26, op.stripeSize = 2 ^ j := by
  simp only [rsValid, Bool.not_eq_true', decide_eq_false_iff_not, not_or, not_lt, not_le,
    not_not] at h
  obtain ⟨-, -, -, -, -, hlo, -, hdiv, -, -⟩ := h
  have hpos : 0 < op.stripeSize := by unfold KFS_MIN_STRIPE_SIZE at hlo; omega
  have hd : (op.stripeSize.toNat : Int) ∣ ((2 ^ 26 : Nat) : Int) := by
    rw [Int.toNat_of_nonneg hpos.le]
    exact Int.dvd_of_emod_eq_zero (by rwa [Int.tmod_eq_emod (by decide) hpos.le] at hdiv)
  obtain ⟨j, hj, hj'⟩ := (Nat.dvd_prime_pow Nat.prime_two).1 (Int.natCast_dvd_natCast.mp hd)
  exact ⟨j, hj, by rw [← Int.toNat_of_nonneg hpos.le, hj']; push_cast; rfl⟩

/-- `GetLcm` of the block size and a power-of-two stripe size is the larger of the two, a
multiple of both; the `GetGcd` it divides by is positive. -/
theorem getLcm_pow {j : Nat} (hj : j ≤ 26) :
    getLcm CHECKSUM_BLOCKSIZE (2 ^ j) = max CHECKSUM_BLOCKSIZE (2 ^ j) ∧
      CHECKSUM_BLOCKSIZE ∣ max CHECKSUM_BLOCKSIZE (2 ^ j) ∧ 2 ^ j ∣ max CHECKSUM_BLOCKSIZE (2 ^ j) ∧
      0 < getGcd CHECKSUM_BLOCKSIZE (2 ^ j) := by
  interval_cases j <;> decide

/-- `GetReadSize` reads a whole number of checksum blocks, at least one. -/
theorem getReadSize_blocks {maxReadSize quota ioBufferSize : Int} {op : ReplicateChunkOp}
    (hv : rsValid op = true) (hm : CHECKSUM_BLOCKSIZE ∣ maxReadSize) :
    CHECKSUM_BLOCKSIZE ∣ getReadSize maxReadSize quota ioBufferSize op ∧
      CHECKSUM_BLOCKSIZE ≤ getReadSize maxReadSize quota ioBufferSize op := by
  obtain ⟨j, hj, hss⟩ := stripeSize_pow hv
  obtain ⟨hl, hld, -, -⟩ := getLcm_pow hj
  unfold getReadSize
  dsimp only
  generalize hsz : max CHECKSUM_BLOCKSIZE _ = size
  have hd : CHECKSUM_BLOCKSIZE ∣ size ∧ CHECKSUM_BLOCKSIZE ≤ size := by
    have hmin : CHECKSUM_BLOCKSIZE ∣ min maxReadSize
        ((quota.tdiv (max 1 (int32 (op.numStripes + 1)))).tdiv CHECKSUM_BLOCKSIZE *
          CHECKSUM_BLOCKSIZE) := by
      rcases min_choice maxReadSize ((quota.tdiv (max 1 (int32 (op.numStripes + 1)))).tdiv
          CHECKSUM_BLOCKSIZE * CHECKSUM_BLOCKSIZE) with h | h <;> rw [h]
      · exact hm
      · exact Int.dvd_mul_left _ _
    rw [← hsz]
    refine ⟨?_, le_max_left _ _⟩
    rcases max_choice CHECKSUM_BLOCKSIZE (int32 (min maxReadSize _)) with h | h <;> rw [h]
    exact dvd_int32 hmin
  split
  · exact hd
  · rename_i hgt
    rw [hss, hl, if_neg (not_lt.mpr (max_le hd.2 (by omega)))]
    have hpos : 0 < max CHECKSUM_BLOCKSIZE (2 ^ j) := lt_max_of_lt_left (by decide)
    have hq : 1 ≤ size.tdiv (max CHECKSUM_BLOCKSIZE (2 ^ j)) := by
      rw [Int.tdiv_eq_ediv (by omega) hpos.le]
      exact Int.le_ediv_of_mul_le hpos (by rw [one_mul]; exact max_le hd.2 (by omega))
    exact ⟨Int.dvd_trans hld (Int.dvd_mul_left _ _),
      (le_max_left _ _).trans (le_mul_of_one_le_left hpos.le hq)⟩

/-- The `size` `GetReadSize` starts from: the client quota's share per stripe in whole blocks,
capped by `sRSReaderMaxReadSize` and raised to one block. -/
def readSizeCap (maxReadSize quota : Int) (op : ReplicateChunkOp) : Int :=
  max CHECKSUM_BLOCKSIZE (int32 (min maxReadSize
    ((quota.tdiv (max 1 (int32 (op.numStripes + 1)))).tdiv CHECKSUM_BLOCKSIZE *
      CHECKSUM_BLOCKSIZE)))

/-- With a non-negative quota and an `int` maximum that is a positive multiple of the block size,
the starting size is whole blocks, from one block up to the maximum: the `(int)` cast is exact. -/
theorem readSizeCap_bounds {maxReadSize quota : Int} (op : ReplicateChunkOp) (hq : 0 ≤ quota)
    (hm : CHECKSUM_BLOCKSIZE ∣ maxReadSize) (hpos : 0 < maxReadSize) (hint : InInt32 maxReadSize) :
    CHECKSUM_BLOCKSIZE ∣ readSizeCap maxReadSize quota op ∧
      CHECKSUM_BLOCKSIZE ≤ readSizeCap maxReadSize quota op ∧
      readSizeCap maxReadSize quota op ≤ maxReadSize := by
  unfold readSizeCap
  generalize hx : (quota.tdiv (max 1 (int32 (op.numStripes + 1)))).tdiv CHECKSUM_BLOCKSIZE *
    CHECKSUM_BLOCKSIZE = x
  have hx0 : 0 ≤ x :=
    hx ▸ Int.mul_nonneg (Int.tdiv_nonneg (Int.tdiv_nonneg hq (by omega)) (by decide)) (by decide)
  have hxd : CHECKSUM_BLOCKSIZE ∣ x := hx ▸ Int.dvd_mul_left _ _
  have hcm : CHECKSUM_BLOCKSIZE ≤ maxReadSize := Int.le_of_dvd hpos hm
  unfold InInt32 at hint
  rw [int32_of_inInt32 (show InInt32 (min maxReadSize x) by unfold InInt32; omega)]
  refine ⟨?_, le_max_left _ _, max_le hcm (min_le_left _ _)⟩
  rcases max_choice CHECKSUM_BLOCKSIZE (min maxReadSize x) with h | h <;> rw [h]
  rcases min_choice maxReadSize x with h' | h' <;> rw [h'] <;> assumption

/-- Rounding `x` down to a multiple of `l`, for `0 < l ≤ x`, stays between `l` and `x`. -/
theorem tdiv_mul_bounds {x l : Int} (hl : 0 < l) (hx : l ≤ x) :
    l ≤ x.tdiv l * l ∧ x.tdiv l * l ≤ x := by
  rw [Int.tdiv_eq_ediv (by omega) hl.le]
  exact ⟨le_mul_of_one_le_left hl.le (Int.le_ediv_of_mul_le hl (by rwa [one_mul])),
    Int.ediv_mul_le x (by omega)⟩

/-- `GetReadSize` divides only by positive numbers: `max(1, numStripes + 1)`, the `GetGcd` in
`GetLcm` and the `GetLcm` it rounds by. Its `lcm > size` test fails, so the "invalid read
parameters" fallback and its `GetLcm(kIoBufferSize, stripeSize)` are never reached. The read
size is whole blocks, hence whole I/O buffers, at least one block and at most
`sRSReaderMaxReadSize`, and either at most one stripe or whole stripes. -/
theorem getReadSize_aligned {maxReadSize quota ioBufferSize : Int} {op : ReplicateChunkOp}
    (hv : rsValid op = true) (hq : 0 ≤ quota) (hm : CHECKSUM_BLOCKSIZE ∣ maxReadSize)
    (hpos : 0 < maxReadSize) (hint : InInt32 maxReadSize) :
    (0 < max 1 (int32 (op.numStripes + 1)) ∧ 0 < getGcd CHECKSUM_BLOCKSIZE op.stripeSize ∧
      0 < getLcm CHECKSUM_BLOCKSIZE op.stripeSize) ∧
    ¬(op.stripeSize < readSizeCap maxReadSize quota op ∧
      readSizeCap maxReadSize quota op < getLcm CHECKSUM_BLOCKSIZE op.stripeSize) ∧
    CHECKSUM_BLOCKSIZE ≤ getReadSize maxReadSize quota ioBufferSize op ∧
    getReadSize maxReadSize quota ioBufferSize op ≤ maxReadSize ∧
    CHECKSUM_BLOCKSIZE ∣ getReadSize maxReadSize quota ioBufferSize op ∧
    (ioBufferSize ∣ CHECKSUM_BLOCKSIZE →
      ioBufferSize ∣ getReadSize maxReadSize quota ioBufferSize op) ∧
    (getReadSize maxReadSize quota ioBufferSize op ≤ op.stripeSize ∨
      op.stripeSize ∣ getReadSize maxReadSize quota ioBufferSize op) := by
  obtain ⟨j, hj, hss⟩ := stripeSize_pow hv
  obtain ⟨hl, hld, hls, hg⟩ := getLcm_pow hj
  rw [← hss] at hl hld hls hg
  obtain ⟨hcd, hcl, hcm⟩ := readSizeCap_bounds op hq hm hpos hint
  have hlpos : 0 < max CHECKSUM_BLOCKSIZE op.stripeSize := lt_max_of_lt_left (by decide)
  have hr : getReadSize maxReadSize quota ioBufferSize op =
      if readSizeCap maxReadSize quota op ≤ op.stripeSize then readSizeCap maxReadSize quota op
      else (readSizeCap maxReadSize quota op).tdiv (max CHECKSUM_BLOCKSIZE op.stripeSize) *
        max CHECKSUM_BLOCKSIZE op.stripeSize := by
    change (if readSizeCap maxReadSize quota op ≤ op.stripeSize then _ else
      if getLcm CHECKSUM_BLOCKSIZE op.stripeSize > readSizeCap maxReadSize quota op then _
      else _) = _
    rw [hl]
    split_ifs <;> first | rfl | omega
  refine ⟨⟨by omega, hg, hl ▸ hlpos⟩, by rw [hl]; omega, ?_⟩
  rw [hr]
  split
  · exact ⟨hcl, hcm, hcd, fun hio => Int.dvd_trans hio hcd, .inl ‹_›⟩
  · obtain ⟨hlo, hhi⟩ := tdiv_mul_bounds hlpos (max_le hcl (by omega))
    have hdl := Int.dvd_mul_left ((readSizeCap maxReadSize quota op).tdiv
      (max CHECKSUM_BLOCKSIZE op.stripeSize)) (max CHECKSUM_BLOCKSIZE op.stripeSize)
    exact ⟨(le_max_left _ _).trans hlo, hhi.trans hcm, Int.dvd_trans hld hdl,
      fun hio => Int.dvd_trans hio (Int.dvd_trans hld hdl), .inr (Int.dvd_trans hls hdl)⟩

/-- The default recovery read for 64 KiB stripes: whole stripes, at least one block. -/
theorem getReadSize_aligned_default :
    CHECKSUM_BLOCKSIZE ≤ getReadSize kDefaultReplicationReadSize 67108864 4096
        ⟨1, 2, 1, 2, false, 20000, 0, 2, 6, 3, 65536, 1, []⟩ ∧
      (65536 : Int) ∣ getReadSize kDefaultReplicationReadSize 67108864 4096
        ⟨1, 2, 1, 2, false, 20000, 0, 2, 6, 3, 65536, 1, []⟩ :=
  have h := @getReadSize_aligned kDefaultReplicationReadSize 67108864 4096
    ⟨1, 2, 1, 2, false, 20000, 0, 2, 6, 3, 65536, 1, []⟩ rfl (by decide) ⟨16, by decide⟩
    (by decide) (by decide)
  ⟨h.2.2.1, h.2.2.2.2.1⟩

/-! ## The layout of the writes -/

/-- `ws` are written at contiguous offsets from `o` to `e`, each non-empty and carrying as
many bytes as it asks the store to write. -/
def Lays : Int → List WriteCall → Int → Prop
  | o, [], e => o = e
  | o, w :: ws, e =>
    w.offset = o ∧ 0 < w.numBytes ∧ (w.data.length : Int) = w.numBytes ∧
      Lays (o + w.numBytes) ws e

/-- Every write of `ws` is a whole number of checksum blocks. -/
def WholeBlocks (ws : List WriteCall) : Prop := ∀ w ∈ ws, CHECKSUM_BLOCKSIZE ∣ w.numBytes

/-- The store received exactly `d`: the writes start at 0, each where the one before ends, each
carries as many bytes as it asks for, all but the last are a positive whole number of checksum
blocks, and their data, in order, is `d`. -/
structure ExactRecovery (d : List UInt8) (ws : List WriteCall) : Prop where
  contiguous : ∀ i (h : i < ws.length), ws[i].offset = ((ws.take i).map WriteCall.numBytes).sum
  sizes : ∀ i (h : i < ws.length), (ws[i].data.length : Int) = ws[i].numBytes
  whole : ∀ i (h : i + 1 < ws.length), 0 < ws[i].numBytes ∧ CHECKSUM_BLOCKSIZE ∣ ws[i].numBytes
  data : (ws.map WriteCall.data).flatten = d

namespace Lays

theorem nil (o : Int) : Lays o [] o := rfl

/-- A write that starts where the layout ends extends it. -/
theorem append {o e : Int} {ws : List WriteCall} (h : Lays o ws e) (w : WriteCall)
    (hoff : w.offset = e) (hpos : 0 < w.numBytes) (hlen : (w.data.length : Int) = w.numBytes) :
    Lays o (ws ++ [w]) (e + w.numBytes) := by
  induction ws generalizing o with
  | nil =>
    cases h
    exact ⟨hoff, hpos, hlen, rfl⟩
  | cons v ws ih =>
    obtain ⟨h1, h2, h3, hrest⟩ := h
    exact ⟨h1, h2, h3, ih hrest⟩

/-- The writes carry exactly the bytes between `o` and `e`. -/
theorem length {o e : Int} {ws : List WriteCall} (h : Lays o ws e) :
    ((ws.map WriteCall.data).flatten.length : Int) = e - o := by
  induction ws generalizing o with
  | nil =>
    cases h
    simp
  | cons w ws ih =>
    obtain ⟨-, -, hlen, hrest⟩ := h
    have := ih hrest
    simp only [List.map_cons, List.flatten_cons, List.length_append, Nat.cast_add]
    omega

/-- The indexed reading of a layout from `o`. -/
theorem getElem {o e : Int} {ws : List WriteCall} (h : Lays o ws e) (i : Nat)
    (hi : i < ws.length) :
    ws[i].offset = o + ((ws.take i).map WriteCall.numBytes).sum ∧ 0 < ws[i].numBytes ∧
      (ws[i].data.length : Int) = ws[i].numBytes := by
  induction ws generalizing o i with
  | nil => simp at hi
  | cons w ws ih =>
    obtain ⟨h1, h2, h3, hrest⟩ := h
    cases i with
    | zero => exact ⟨by simp [h1], h2, h3⟩
    | succ i =>
      obtain ⟨g1, g2, g3⟩ := ih hrest i (by simp at hi; omega)
      simp only [List.getElem_cons_succ, List.take_succ_cons, List.map_cons, List.sum_cons]
      exact ⟨by rw [g1]; omega, g2, g3⟩

/-- A layout from 0 whose writes but the last are whole blocks is an exact recovery of the
data it carries. -/
theorem exactRecovery {e : Int} {ws : List WriteCall} (h : Lays 0 ws e)
    (hw : WholeBlocks ws.dropLast) : ExactRecovery (ws.map WriteCall.data).flatten ws where
  contiguous i hi := by simpa using (h.getElem i hi).1
  sizes i hi := (h.getElem i hi).2.2
  whole i hi := by
    refine ⟨(h.getElem i (by omega)).2.1, ?_⟩
    have hd : i < ws.dropLast.length := by rw [List.length_dropLast]; omega
    simpa only [List.getElem_dropLast] using hw _ (List.getElem_mem hd)
  data := rfl

end Lays

end QfsReplicator
