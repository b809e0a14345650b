import QfsReplicator.Model.Step

/-! # Writes that tile a source chunk

A list of `WriteChunk` calls tiles `src` from `o` to `e` when each write starts where the one
before ends, on a checksum block, carries the source's bytes there and either no checksums or
the peer's checksum of each block it spans. `ExactCopy` says the same with indices, in the
terms a reader would check a finished copy in; `Tiles.exactCopy` derives it.
-/

namespace QfsReplicator

/-- The peer's checksums of the blocks that `n` bytes at the block-aligned offset `o` span;
`ck b` is its checksum of block `b`. -/
def blockCks (ck : Int → UInt32) (o n : Int) : List UInt32 :=
  (List.range (numBlocks n).toNat).map fun j : Nat => ck (o / CHECKSUM_BLOCKSIZE + (j : Int))

/-- `ws` tiles `src` from `o` to `e`. -/
def Tiles (src : List UInt8) (ck : Int → UInt32) : Int → List WriteCall → Int → Prop
  | o, [], e => o = e
  | o, w :: ws, e =>
    w.offset = o ∧ CHECKSUM_BLOCKSIZE ∣ o ∧ 0 < w.numBytes ∧ w.data = slice src o w.numBytes ∧
      (w.checksums = [] ∨ w.checksums = blockCks ck o w.numBytes) ∧
      Tiles src ck (o + w.numBytes) ws e

/-- The store received exactly `src`: the writes start at 0, each where the one before ends,
and together cover `src`; each starts on a checksum block, is non-empty, carries the source's
bytes and no checksums or the peer's checksum of each block; all but the last are whole
blocks. -/
structure ExactCopy (src : List UInt8) (ck : Int → UInt32) (ws : List WriteCall) : Prop where
  contiguous : ∀ i (h : i < ws.length), ws[i].offset = ((ws.take i).map WriteCall.numBytes).sum
  total : (ws.map WriteCall.numBytes).sum = src.length
  aligned : ∀ i (h : i < ws.length), CHECKSUM_BLOCKSIZE ∣ ws[i].offset
  positive : ∀ i (h : i < ws.length), 0 < ws[i].numBytes
  whole : ∀ i (h : i + 1 < ws.length), CHECKSUM_BLOCKSIZE ∣ ws[i].numBytes
  data : ∀ i (h : i < ws.length), ws[i].data = slice src ws[i].offset ws[i].numBytes
  checksums : ∀ i (h : i < ws.length),
    ws[i].checksums = [] ∨ ws[i].checksums = blockCks ck ws[i].offset ws[i].numBytes

/-! ## Slices and block checksums -/

theorem slice_append (src : List UInt8) {o n m : Int} (ho : 0 ≤ o) (hn : 0 ≤ n) (hm : 0 ≤ m) :
    slice src o n ++ slice src (o + n) m = slice src o (n + m) := by
  simp only [slice, Int.toNat_add ho hn, Int.toNat_add hn hm, List.take_add, List.drop_drop]

theorem take_slice (src : List UInt8) {o n : Int} (k : Nat) (hk : (k : Int) ≤ n) :
    (slice src o n).take k = slice src o k := by
  simp only [slice, List.take_take, Int.toNat_natCast]
  congr 1
  omega

theorem drop_slice (src : List UInt8) {o n : Int} (ho : 0 ≤ o) (k : Nat) (hk : (k : Int) ≤ n) :
    (slice src o n).drop k = slice src (o + k) (n - k) := by
  simp only [slice, List.drop_take, List.drop_drop]
  congr 2 <;> omega

/-- The first `k` bytes of a buffer that holds `[o, o + len)` are `[o, o + k)`. -/
theorem take_eq_slice {b src : List UInt8} {o : Int} (h : b = slice src o b.length) {k : Nat}
    (hk : k ≤ b.length) : b.take k = slice src o k :=
  calc b.take k = (slice src o b.length).take k := by rw [← h]
    _ = slice src o k := take_slice src k (by omega)

/-- What is left of a buffer that holds `[o, o + len)` after `k` bytes is `[o + k, o + len)`. -/
theorem drop_eq_slice {b src : List UInt8} {o : Int} (ho : 0 ≤ o) (h : b = slice src o b.length)
    {k : Nat} (hk : k ≤ b.length) : b.drop k = slice src (o + k) (b.drop k).length :=
  calc b.drop k = (slice src o b.length).drop k := by rw [← h]
    _ = slice src (o + k) (b.drop k).length := by
      rw [drop_slice src ho k (by omega), List.length_drop]
      congr 1
      omega

theorem length_blockCks (ck : Int → UInt32) (o : Int) {n : Int} (hn : 0 ≤ n) :
    ((blockCks ck o n).length : Int) = numBlocks n := by
  simp only [blockCks, List.length_map, List.length_range]
  unfold numBlocks CHECKSUM_BLOCKSIZE
  omega

theorem numBlocks_of_lt {t : Int} (h0 : 0 < t) (h : t ≤ CHECKSUM_BLOCKSIZE) : numBlocks t = 1 := by
  unfold numBlocks CHECKSUM_BLOCKSIZE at *
  omega

/-- The checksums of a whole-block prefix are the checksums of the whole read, less the last. -/
theorem blockCks_dropLast (ck : Int → UInt32) {o p t : Int} (hp : CHECKSUM_BLOCKSIZE ∣ p)
    (hp0 : 0 ≤ p) (ht : 0 < t) (ht' : t < CHECKSUM_BLOCKSIZE) :
    (blockCks ck o (p + t)).dropLast = blockCks ck o p := by
  obtain ⟨q, rfl⟩ := hp
  have h1 : (numBlocks (CHECKSUM_BLOCKSIZE * q + t)).toNat = q.toNat + 1 := by
    unfold numBlocks CHECKSUM_BLOCKSIZE at *
    omega
  have h2 : (numBlocks (CHECKSUM_BLOCKSIZE * q)).toNat = q.toNat := by
    unfold numBlocks CHECKSUM_BLOCKSIZE at *
    omega
  simp only [blockCks, h1, h2, List.range_succ, List.map_append, List.map_cons, List.map_nil,
    List.dropLast_concat]

/-- The checksum a split read keeps for its tail is the peer's checksum of the tail's block. -/
theorem blockCks_last (ck : Int → UInt32) {o p t : Int} (ho : CHECKSUM_BLOCKSIZE ∣ o)
    (hp : CHECKSUM_BLOCKSIZE ∣ p) (hp0 : 0 ≤ p) (ht : 0 < t) (ht' : t < CHECKSUM_BLOCKSIZE) :
    (blockCks ck o (p + t)).getLast?.toList = blockCks ck (o + p) t := by
  obtain ⟨q, rfl⟩ := hp
  obtain ⟨a, rfl⟩ := ho
  have h1 : (numBlocks (CHECKSUM_BLOCKSIZE * q + t)).toNat = q.toNat + 1 := by
    unfold numBlocks CHECKSUM_BLOCKSIZE at *
    omega
  have h2 : (numBlocks t).toNat = 1 := by
    rw [numBlocks_of_lt ht (Int.le_of_lt ht')]
    rfl
  have h3 : (CHECKSUM_BLOCKSIZE * a + CHECKSUM_BLOCKSIZE * q) / CHECKSUM_BLOCKSIZE = a + q := by
    unfold CHECKSUM_BLOCKSIZE
    omega
  have h4 : CHECKSUM_BLOCKSIZE * a / CHECKSUM_BLOCKSIZE = a := by
    unfold CHECKSUM_BLOCKSIZE
    omega
  simp only [blockCks, h1, h2, List.range_succ, List.map_append, List.map_cons, List.map_nil,
    List.getLast?_concat, Option.toList_some, h3, h4, List.range_zero, List.nil_append]
  unfold CHECKSUM_BLOCKSIZE at hp0
  congr 2
  omega

/-! ## Tiles -/

namespace Tiles

variable {src : List UInt8} {ck : Int → UInt32}

theorem le {o e : Int} {ws : List WriteCall} (h : Tiles src ck o ws e) : o ≤ e := by
  induction ws generalizing o with
  | nil => exact le_of_eq h
  | cons w ws ih =>
      obtain ⟨-, -, hpos, -, -, hrest⟩ := h
      have := ih hrest
      omega

/-- A write that starts where the tiling ends extends it. -/
theorem append {o e : Int} {ws : List WriteCall} (h : Tiles src ck o ws e) (w : WriteCall)
    (hoff : w.offset = e) (hal : CHECKSUM_BLOCKSIZE ∣ e) (hpos : 0 < w.numBytes)
    (hdata : w.data = slice src e w.numBytes)
    (hck : w.checksums = [] ∨ w.checksums = blockCks ck e w.numBytes) :
    Tiles src ck o (ws ++ [w]) (e + w.numBytes) := by
  induction ws generalizing o with
  | nil =>
      cases h
      exact ⟨hoff, hal, hpos, hdata, hck, rfl⟩
  | cons v ws ih =>
      obtain ⟨h1, h2, h3, h4, h5, hrest⟩ := h
      exact ⟨h1, h2, h3, h4, h5, ih hrest⟩

/-- The indexed reading of a tiling from `o`. -/
theorem getElem {o e : Int} {ws : List WriteCall} (h : Tiles src ck o ws e) (i : Nat)
    (hi : i < ws.length) :
    ws[i].offset = o + ((ws.take i).map WriteCall.numBytes).sum ∧
      CHECKSUM_BLOCKSIZE ∣ ws[i].offset ∧ 0 < ws[i].numBytes ∧
      ws[i].data = slice src ws[i].offset ws[i].numBytes ∧
      (ws[i].checksums = [] ∨ ws[i].checksums = blockCks ck ws[i].offset ws[i].numBytes) ∧
      (i + 1 < ws.length → CHECKSUM_BLOCKSIZE ∣ ws[i].numBytes) := by
  induction ws generalizing o i with
  | nil => simp at hi
  | cons w ws ih =>
      obtain ⟨h1, h2, h3, h4, h5, hrest⟩ := h
      cases i with
      | zero =>
          refine ⟨by simp [h1], by simpa [h1] using h2, h3, by simpa [h1] using h4,
            by simpa [h1] using h5, fun hlt => ?_⟩
          have hnext := ih hrest 0 (by simp at hlt; omega)
          have hsum : ((ws.take 0).map WriteCall.numBytes).sum = 0 := by simp
          rw [hsum, add_zero] at hnext
          simp only [List.getElem_cons_zero]
          have := (Int.dvd_add_right (h1 ▸ h2 : CHECKSUM_BLOCKSIZE ∣ w.offset)).mp
            (h1 ▸ hnext.1 ▸ hnext.2.1 : CHECKSUM_BLOCKSIZE ∣ w.offset + w.numBytes)
          exact this
      | succ i =>
          have hi' : i < ws.length := by simp at hi; omega
          obtain ⟨g1, g2, g3, g4, g5, g6⟩ := ih hrest i hi'
          simp only [List.getElem_cons_succ, List.take_succ_cons, List.map_cons, List.sum_cons]
          exact ⟨by rw [g1]; omega, g2, g3, g4, g5, fun hlt => g6 (by simp at hlt; omega)⟩

theorem sum {o e : Int} {ws : List WriteCall} (h : Tiles src ck o ws e) :
    o + (ws.map WriteCall.numBytes).sum = e := by
  induction ws generalizing o with
  | nil => simpa using h
  | cons w ws ih =>
      obtain ⟨-, -, -, -, -, hrest⟩ := h
      have := ih hrest
      simp only [List.map_cons, List.sum_cons]
      omega

/-- A tiling of `src` from 0 to its length is an exact copy of it. -/
theorem exactCopy {ws : List WriteCall} (h : Tiles src ck 0 ws src.length) :
    ExactCopy src ck ws where
  contiguous i hi := by simpa using (h.getElem i hi).1
  total := by simpa using h.sum
  aligned i hi := (h.getElem i hi).2.1
  positive i hi := (h.getElem i hi).2.2.1
  whole i hi := (h.getElem i (by omega)).2.2.2.2.2 hi
  data i hi := (h.getElem i hi).2.2.2.1
  checksums i hi := (h.getElem i hi).2.2.2.2.1

end Tiles

end QfsReplicator
