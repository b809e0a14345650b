import QfsReplicator.Recovery.Layout

/-! # The recovery read size under every configuration

`SetParameters` rounds `chunkServer.rsReader.maxReadSize` up to whole checksum blocks in `int`
arithmetic: to the least multiple of the block at or above `max(1, v)`, unless `v` lies within a
block of `INT_MAX`, where the sum wraps and the stored maximum is negative
(`rsReaderMaxReadSize_rounds`). So the `assert` at the top of `GetReadSize` holds exactly for the
configured values that do not wrap; `GetReadSize` reads whole blocks, at least one, under every
configuration all the same (`getReadSize_configured`).

`GetGcd` is Euclid's loop on C++ `%`. Of all pairs of `int`s, only `(INT_MIN, -1)` and
`(-1, INT_MIN)` make a round divide `INT_MIN` by `-1`, which C++ leaves undefined; for every
other pair it returns their greatest common divisor up to sign, within the `|nr| + 1` rounds its
fuel allows (`getGcd_natAbs`). `GetLcm` returns the least common multiple of two positive `int`s
whenever that fits in an `int` (`getLcm_of_pos`).
-/

namespace QfsReplicator

/-- The value `RSReplicatorImpl::SetParameters` stores in `sRSReaderMaxReadSize` for the `int` `v`
it reads from `chunkServer.rsReader.maxReadSize`. -/
def rsReaderMaxReadSize (v : Int) : Int :=
  (int32 (max 1 v + CHECKSUM_BLOCKSIZE - 1)).tdiv CHECKSUM_BLOCKSIZE * CHECKSUM_BLOCKSIZE

theorem rsReaderMaxReadSize_dvd (v : Int) : CHECKSUM_BLOCKSIZE ∣ rsReaderMaxReadSize v :=
  Int.dvd_mul_left _ _

/-- `SetParameters` stores a multiple of the checksum block for every configured `int`: for `v`
up to `INT_MAX` less a block, the least one at or above `max(1, v)`; above that the rounding
wraps and the stored maximum is negative. -/
theorem rsReaderMaxReadSize_rounds {v : Int} (hv : v < 2 ^ 31) :
    CHECKSUM_BLOCKSIZE ∣ rsReaderMaxReadSize v ∧
      (v ≤ 2 ^ 31 - CHECKSUM_BLOCKSIZE →
        max 1 v ≤ rsReaderMaxReadSize v ∧ rsReaderMaxReadSize v < max 1 v + CHECKSUM_BLOCKSIZE) ∧
      (2 ^ 31 - CHECKSUM_BLOCKSIZE < v → rsReaderMaxReadSize v < 0) := by
  refine ⟨rsReaderMaxReadSize_dvd v, fun hle => ?_, fun hgt => ?_⟩
  · rw [CHECKSUM_BLOCKSIZE_eq] at hle ⊢
    unfold rsReaderMaxReadSize
    rw [CHECKSUM_BLOCKSIZE_eq, int32_of_inInt32 (by unfold InInt32; omega),
      Int.tdiv_eq_ediv (by omega) (by decide)]
    omega
  · rw [CHECKSUM_BLOCKSIZE_eq] at hgt
    have hw : int32 (max 1 v + CHECKSUM_BLOCKSIZE - 1) = -(2 ^ 32 - 65535 - v) := by
      unfold int32
      rw [CHECKSUM_BLOCKSIZE_eq, max_eq_right (by omega)]
      omega
    unfold rsReaderMaxReadSize
    rw [hw, Int.neg_tdiv, CHECKSUM_BLOCKSIZE_eq, Int.tdiv_eq_ediv (by omega) (by decide)]
    omega

/-- `GetReadSize`'s `assert` holds for a valid op and a block of whole I/O buffers exactly when
the stored maximum is at least a block. -/
theorem getReadSizeAssert_iff {maxReadSize ioBufferSize : Int} {op : ReplicateChunkOp}
    (hv : rsValid op = true) (hio : CHECKSUM_BLOCKSIZE.tmod ioBufferSize = 0)
    (hm : CHECKSUM_BLOCKSIZE ∣ maxReadSize) :
    getReadSizeAssert maxReadSize ioBufferSize op = true ↔ CHECKSUM_BLOCKSIZE ≤ maxReadSize := by
  obtain ⟨j, -, hss⟩ := stripeSize_pow hv
  have hpos : op.stripeSize > 0 := hss ▸ pow_pos (by decide) j
  simp [getReadSizeAssert, hpos, Int.tmod_eq_zero_of_dvd hm, hio]

/-- Whatever `int` `chunkServer.rsReader.maxReadSize` is set to, `GetReadSize`'s `assert` holds
for a valid op, with the block whole I/O buffers, exactly when the value is at most `INT_MAX`
less a block, so that the rounding does not wrap; and a recovery reads whole checksum blocks, at
least one, either way. -/
theorem getReadSize_configured {v quota ioBufferSize : Int} {op : ReplicateChunkOp}
    (hv : rsValid op = true) (hio : CHECKSUM_BLOCKSIZE.tmod ioBufferSize = 0) (hint : v < 2 ^ 31) :
    (getReadSizeAssert (rsReaderMaxReadSize v) ioBufferSize op = true ↔
        v ≤ 2 ^ 31 - CHECKSUM_BLOCKSIZE) ∧
      CHECKSUM_BLOCKSIZE ∣ getReadSize (rsReaderMaxReadSize v) quota ioBufferSize op ∧
      CHECKSUM_BLOCKSIZE ≤ getReadSize (rsReaderMaxReadSize v) quota ioBufferSize op := by
  obtain ⟨hd, hle, hgt⟩ := rsReaderMaxReadSize_rounds hint
  refine ⟨(getReadSizeAssert_iff hv hio hd).trans ⟨fun h => ?_, fun h => ?_⟩,
    getReadSize_blocks hv hd⟩
  · by_contra hv'
    have := hgt (by omega)
    rw [CHECKSUM_BLOCKSIZE_eq] at h
    omega
  · obtain ⟨h1, -⟩ := hle h
    obtain ⟨k, hk⟩ := hd
    rw [hk, CHECKSUM_BLOCKSIZE_eq] at h1 ⊢
    have : 0 < k := by omega
    omega

/-- The largest `int` as the maximum read size: the rounding wraps, the `assert` fails, and the
read is still one whole block. -/
theorem getReadSize_configured_int_max :
    rsValid ⟨1, 2, 1, 2, false, 20000, 0, 2, 6, 3, 65536, 1, []⟩ = true ∧
      CHECKSUM_BLOCKSIZE.tmod 4096 = 0 ∧ (2 ^ 31 - 1 : Int) < 2 ^ 31 ∧
      getReadSizeAssert (rsReaderMaxReadSize (2 ^ 31 - 1)) 4096
        ⟨1, 2, 1, 2, false, 20000, 0, 2, 6, 3, 65536, 1, []⟩ = false ∧
      ((getReadSizeAssert (rsReaderMaxReadSize (2 ^ 31 - 1)) 4096
          ⟨1, 2, 1, 2, false, 20000, 0, 2, 6, 3, 65536, 1, []⟩ = true ↔
          (2 ^ 31 - 1 : Int) ≤ 2 ^ 31 - CHECKSUM_BLOCKSIZE) ∧
        CHECKSUM_BLOCKSIZE ∣ getReadSize (rsReaderMaxReadSize (2 ^ 31 - 1)) 67108864 4096
          ⟨1, 2, 1, 2, false, 20000, 0, 2, 6, 3, 65536, 1, []⟩ ∧
        CHECKSUM_BLOCKSIZE ≤ getReadSize (rsReaderMaxReadSize (2 ^ 31 - 1)) 67108864 4096
          ⟨1, 2, 1, 2, false, 20000, 0, 2, 6, 3, 65536, 1, []⟩) :=
  ⟨rfl, by decide, by decide, by decide, getReadSize_configured rfl (by decide) (by decide)⟩

/-! ## `GetGcd` and `GetLcm` -/

/-- C++ `%` keeps the magnitude of the remainder of the magnitudes. -/
theorem natAbs_tmod (a b : Int) : (a.tmod b).natAbs = a.natAbs % b.natAbs := by
  cases a <;> cases b <;> first | rfl | exact Int.natAbs_neg _

/-- Each round of the loop keeps the greatest common divisor and shrinks `|b|`, so fuel above
`|b|` is enough. -/
theorem getGcdLoop_natAbs (fuel : Nat) (a b : Int) (h : b.natAbs < fuel) :
    (getGcdLoop fuel a b).natAbs = Int.gcd a b := by
  induction fuel generalizing a b with
  | zero => omega
  | succ fuel ih =>
    unfold getGcdLoop
    split
    · rename_i hb
      simp [hb, Int.gcd]
    · rename_i hb
      have hpos : 0 < b.natAbs := Int.natAbs_pos.mpr hb
      rw [ih b (a.tmod b) (by rw [natAbs_tmod]; exact (Nat.mod_lt _ hpos).trans_le (by omega))]
      calc Int.gcd b (a.tmod b) = Nat.gcd b.natAbs (a.natAbs % b.natAbs) := by
            rw [Int.gcd, natAbs_tmod]
        _ = Nat.gcd a.natAbs b.natAbs := by rw [Nat.gcd_comm, ← Nat.gcd_rec, Nat.gcd_comm]

/-- `INT_MIN % a`, for an `int` `a`, is `-1` only for `a = -1`. -/
theorem tmod_intMin_eq_neg_one {a : Int} (h : -2147483648 ≤ a) : a.tmod (-2147483648) = -1 ↔ a = -1 := by
  cases a with
  | ofNat m =>
    show Int.ofNat (m % 2147483648) = -1 ↔ _
    simp only [Int.ofNat_eq_coe]
    omega
  | negSucc m =>
    show -Int.ofNat ((m + 1) % 2147483648) = -1 ↔ _
    rw [Int.negSucc_eq] at h ⊢
    simp only [Int.ofNat_eq_coe]
    omega

/-- Once the dividend is not `INT_MIN` and the divisor lies strictly inside the `int` range, no
round divides `INT_MIN` by `-1`: each remainder is smaller than its divisor. -/
theorem getGcdLoopTraps_of_lt (fuel : Nat) {a b : Int} (ha : a ≠ -2147483648) (hb : b.natAbs < 2147483648) :
    getGcdLoopTraps fuel a b = false := by
  induction fuel generalizing a b with
  | zero => rfl
  | succ fuel ih =>
    unfold getGcdLoopTraps
    split
    · rfl
    · rename_i hb0
      have hpos : 0 < b.natAbs := Int.natAbs_pos.mpr hb0
      rw [ih (by omega) (by rw [natAbs_tmod]; exact (Nat.mod_lt _ hpos).trans hb), Bool.or_false,
        decide_eq_false_iff_not]
      exact fun h => ha h.1

/-- Of all pairs of `int`s, `GetGcd` divides `INT_MIN` by `-1` for `(INT_MIN, -1)` in its first
round and for `(-1, INT_MIN)` in its second, and for no other. -/
theorem getGcdTraps_iff {nl nr : Int} (hl : InInt32 nl) (hr : InInt32 nr) :
    getGcdTraps nl nr = true ↔ (nl = -2147483648 ∧ nr = -1) ∨ (nl = -1 ∧ nr = -2147483648) := by
  unfold InInt32 at hl hr
  unfold getGcdTraps
  rw [getGcdLoopTraps]
  split
  · rename_i h0
    subst h0
    simp
  · rename_i h0
    by_cases hm : nr = -2147483648
    · subst hm
      rw [show (-2147483648 : Int).natAbs = 2147483647 + 1 from rfl, getGcdLoopTraps]
      have hr1 : (nl.tmod (-2147483648)).natAbs < 2147483648 := by
        rw [natAbs_tmod]
        exact Nat.mod_lt _ (by decide)
      by_cases hz : nl.tmod (-2147483648) = 0
      · rw [if_pos hz]
        have : nl ≠ -1 := fun h => by rw [h] at hz; exact absurd hz (by decide)
        simp only [Bool.or_false, decide_eq_true_eq, and_true]
        omega
      · rw [if_neg hz, getGcdLoopTraps_of_lt _ (by omega) (by
          rw [natAbs_tmod]
          exact (Nat.mod_lt _ (Int.natAbs_pos.mpr hz)).trans hr1)]
        simp only [Bool.or_false, Bool.or_eq_true, decide_eq_true_eq, tmod_intMin_eq_neg_one hl.1,
          true_and, and_true]
    · rw [getGcdLoopTraps_of_lt _ hm (by
        rw [natAbs_tmod]
        exact (Nat.mod_lt _ (Int.natAbs_pos.mpr h0)).trans (by omega))]
      simp only [Bool.or_false, decide_eq_true_eq]
      omega

/-- For any two `int`s, `GetGcd` is undefined exactly for `(INT_MIN, -1)` and `(-1, INT_MIN)`,
where a round divides `INT_MIN` by `-1`; for every other pair it returns their greatest common
divisor, up to sign. -/
theorem getGcd_natAbs {nl nr : Int} (hl : InInt32 nl) (hr : InInt32 nr) :
    (getGcdTraps nl nr = true ↔ (nl = -2147483648 ∧ nr = -1) ∨ (nl = -1 ∧ nr = -2147483648)) ∧
      (getGcdTraps nl nr = false → (getGcd nl nr).natAbs = Int.gcd nl nr) :=
  ⟨getGcdTraps_iff hl hr, fun _ => getGcdLoop_natAbs _ _ _ (Nat.lt_succ_self _)⟩

/-- `-1` and `INT_MIN`: the second round computes `INT_MIN % -1`. -/
theorem getGcd_natAbs_second_round :
    InInt32 (-1) ∧ InInt32 (-2147483648) ∧ getGcdTraps (-1) (-2147483648) = true ∧
      ((getGcdTraps (-1) (-2147483648) = true ↔
          ((-1 : Int) = -2147483648 ∧ (-2147483648 : Int) = -1) ∨ ((-1 : Int) = -1 ∧ (-2147483648 : Int) = -2147483648)) ∧
        (getGcdTraps (-1) (-2147483648) = false → (getGcd (-1) (-2147483648)).natAbs = Int.gcd (-1) (-2147483648))) :=
  ⟨by decide, by decide, by decide, getGcd_natAbs (by decide) (by decide)⟩

theorem getGcdLoop_nonneg (fuel : Nat) {a b : Int} (ha : 0 ≤ a) (hb : 0 ≤ b) :
    0 ≤ getGcdLoop fuel a b := by
  induction fuel generalizing a b with
  | zero => exact ha
  | succ fuel ih =>
    unfold getGcdLoop
    split
    · exact ha
    · exact ih hb (Int.tmod_nonneg _ ha)

/-- `GetLcm` of two positive `int`s is their least common multiple when that fits in an `int`. -/
theorem getLcm_of_pos {nl nr : Int} (hl : 0 < nl) (hr : 0 < nr) (h : (Int.lcm nl nr : Int) < 2 ^ 31) :
    getLcm nl nr = Int.lcm nl nr := by
  obtain ⟨m, rfl⟩ := Int.eq_ofNat_of_zero_le hl.le
  obtain ⟨n, rfl⟩ := Int.eq_ofNat_of_zero_le hr.le
  have hg : getGcd m n = (Nat.gcd m n : Int) := by
    have hnn : 0 ≤ getGcd m n := getGcdLoop_nonneg _ hl.le hr.le
    rw [← Int.natAbs_of_nonneg hnn]
    exact congrArg _ (getGcdLoop_natAbs _ _ _ (Nat.lt_succ_self _))
  have hlcm : Nat.lcm m n = m / Nat.gcd m n * n := by
    rw [Nat.lcm, Nat.mul_comm m n, Nat.mul_div_assoc n (Nat.gcd_dvd_left m n), Nat.mul_comm]
  have hc : ((m / Nat.gcd m n * n : Nat) : Int) < 2 ^ 31 := by rwa [← hlcm]
  unfold getLcm
  rw [if_neg (by omega), hg, ← Int.ofNat_tdiv, ← Int.ofNat_mul, int32_of_inInt32 (by unfold InInt32; omega)]
  exact congrArg _ hlcm.symm

theorem getLcm_of_pos_block_io :
    (0 : Int) < 65536 ∧ (0 : Int) < 4096 ∧ (Int.lcm 65536 4096 : Int) < 2 ^ 31 ∧
      getLcm 65536 4096 = Int.lcm 65536 4096 :=
  ⟨by decide, by decide, by decide, getLcm_of_pos (by decide) (by decide) (by decide)⟩

end QfsReplicator
