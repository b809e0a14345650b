import QfsReplicator.Direct.Tiles

/-! # Direct replication copies the source exactly

A direct replicator reads `[mOffset, mOffset + numBytes)` from its peer, writes what came back
in checksum-aligned pieces, and carries a final partial block to a write of its own. Against a
peer that serves `src` and a store that writes whole requests, every state it reaches knows
which writes tile which prefix of `src` (`CopyInv`), whatever errors, `-EBADCKSUM` retries,
short reads and cancels happen; once `ChangeChunkVers` has been issued the writes tile all of
`src` (`direct_copy_exact`).
-/

namespace QfsReplicator

/-- A direct replicator as `Replicator::Run` creates it: its op names a source location. -/
def DirectInit (s : Rep) : Prop :=
  ∃ op ct lv rsz, op.locationValid = true ∧ s = Rep.create op ct lv rsz

/-- The peer serves `src`, `ck b` being its checksum of block `b`, and the store writes whole
requests: a successful size reply gives `src.length`; a successful read reply for `mReadOp`
carries a prefix of the bytes asked for and either no checksums or one per block; a successful
write completes all of `mWriteOp`. -/
def DirectOk (src : List UInt8) (ck : Int → UInt32) (s : Rep) : Event → Prop
  | .metadataDone st sz _ => 0 ≤ st → sz = src.length
  | .readDone st data cks => 0 ≤ st → (data.length : Int) ≤ s.rdNumBytes ∧
      data = slice src s.rdOffset data.length ∧
      (cks = [] ∨ cks = blockCks ck s.rdOffset data.length)
  | .writeDone st n _ => 0 ≤ st → n = s.wrNumBytes
  | _ => True

instance (src : List UInt8) (ck : Int → UInt32) (s : Rep) : ∀ e, Decidable (DirectOk src ck s e)
  | .metadataDone st sz _ => inferInstanceAs (Decidable (0 ≤ st → sz = src.length))
  | .readDone st data cks => inferInstanceAs (Decidable (0 ≤ st →
      (data.length : Int) ≤ s.rdNumBytes ∧ data = slice src s.rdOffset data.length ∧
      (cks = [] ∨ cks = blockCks ck s.rdOffset data.length)))
  | .writeDone st n _ => inferInstanceAs (Decidable (0 ≤ st → n = s.wrNumBytes))
  | .granted | .changeVersDone _ | .cancel | .readerDone .. | .closeDone _ | .readerNote _
  | .handleQueued | .handleInline => isTrue trivial

/-- The outstanding-operation flags a direct replicator never raises. -/
def DirectMode (s : Rep) : Prop :=
  s.rs = false ∧ s.runNow = false ∧ s.queued = false ∧ s.readerReads = 0 ∧
    s.readerClose = false ∧ s.readerRegistered = false

/-- Nothing outstanding at the peer or at the store, and no wait for buffers. -/
def Idle (s : Rep) : Prop :=
  s.peerOp = none ∧ s.storeWrite = false ∧ s.waiting = false

section

variable (src : List UInt8) (ck : Int → UInt32)

/-- The size reply gave `src.length`, the writes tile `src` up to `e`, and nothing is final. -/
def Progress (e : Int) (s : Rep) : Prop :=
  s.chunkSize = src.length ∧ Tiles src ck 0 s.writes e ∧ s.versStarts = 0 ∧ s.done = false ∧
    s.changeVers = false

/-- Before the size reply: nothing read, nothing written. -/
def Sizing (s : Rep) : Prop :=
  (s.peerOp = none ∨ (s.peerOp = some .metadata ∧ s.waiting = false)) ∧
    s.storeWrite = false ∧ s.changeVers = false ∧ s.offset = 0 ∧ s.writes = [] ∧
    s.versStarts = 0 ∧ s.done = false

/-- A read of `[mOffset, mOffset + numBytes)` is at the peer; `[0, mOffset)` is written. -/
def Reading (s : Rep) : Prop :=
  s.peerOp = some .read ∧ s.storeWrite = false ∧ s.waiting = false ∧ s.rdOffset = s.offset ∧
    s.offset < s.chunkSize ∧ CHECKSUM_BLOCKSIZE ∣ s.offset ∧
    s.rdNumBytes = min (s.chunkSize - s.offset) kDefaultReplicationReadSize ∧
    Progress src ck s.offset s

/-- The partial block a split read carries, in `mReadOp`, to a write of its own. -/
def TailAt (s : Rep) : Prop :=
  s.rdOffset = s.offset + s.wrNumBytes ∧ s.rdBuf = slice src s.rdOffset s.rdBuf.length ∧
    s.rdOffset + s.rdBuf.length = s.chunkSize ∧ (s.rdBuf.length : Int) < CHECKSUM_BLOCKSIZE ∧
    0 ≤ s.rdStatus ∧ s.rdNumBytes = s.rdBuf.length ∧
    (s.rdChecksum = [] ∨ s.rdChecksum = blockCks ck s.rdOffset s.rdBuf.length)

/-- A write of `[mOffset, mOffset + numBytes)` is at the store, already counted in the tiling,
with any carried tail in `mReadOp`. -/
def Writing (s : Rep) : Prop :=
  s.peerOp = none ∧ s.storeWrite = true ∧ s.waiting = false ∧ CHECKSUM_BLOCKSIZE ∣ s.offset ∧
    0 < s.wrNumBytes ∧ s.offset + s.wrNumBytes ≤ s.chunkSize ∧
    (CHECKSUM_BLOCKSIZE ∣ s.wrNumBytes ∨ s.offset + s.wrNumBytes = s.chunkSize) ∧
    Progress src ck (s.offset + s.wrNumBytes) s ∧ (s.rdBuf ≠ [] → TailAt src ck s)

/-- Where a direct copy stands, by what it has outstanding. -/
inductive CopyStage (s : Rep) : Prop
  | sizing (h : Sizing s)
  | reading (h : Reading src ck s)
  | writing (h : Writing src ck s)
  | closed (h : Idle s)

/-- The invariant of a direct replicator copying `src`. -/
structure CopyInv (s : Rep) : Prop where
  mode : DirectMode s
  final : s.versStarts ≠ 0 → Tiles src ck 0 s.writes src.length
  stage : CopyStage src ck s

/-- `mReadOp` holds what a read returned: with a non-negative status, a prefix of the
`numBytes` asked for at `mOffset`, which end on a block or at the end of the chunk. -/
def Received (s : Rep) : Prop :=
  0 ≤ s.rdStatus → (s.rdBuf.length : Int) ≤ s.rdNumBytes ∧
    s.rdBuf = slice src s.offset s.rdBuf.length ∧
    (s.rdChecksum = [] ∨ s.rdChecksum = blockCks ck s.offset s.rdBuf.length) ∧
    0 < s.rdNumBytes ∧ s.offset + s.rdNumBytes ≤ s.chunkSize ∧
    (CHECKSUM_BLOCKSIZE ∣ s.rdNumBytes ∨ s.offset + s.rdNumBytes = s.chunkSize)

end

variable {src : List UInt8} {ck : Int → UInt32} {s : Rep} {env : Env} {st : Int} {oc : Bool}

/-! ## Ending the copy -/

theorem copyInv_handleReplicationDone (hm : DirectMode s) (hi : Idle s)
    (hf : s.versStarts ≠ 0 → Tiles src ck 0 s.writes src.length) :
    CopyInv src ck (s.handleReplicationDone st) :=
  ⟨hm, hf, .closed hi⟩

/-- `Terminate` reaches `ChangeChunkVers` only for a finished copy. -/
theorem copyInv_terminate (hm : DirectMode s) (hi : Idle s)
    (hf : s.versStarts ≠ 0 → Tiles src ck 0 s.writes src.length)
    (hd : s.done = true → s.cancelFlag = false → Tiles src ck 0 s.writes src.length) :
    CopyInv src ck (s.terminate env st) := by
  unfold Rep.terminate
  split
  · rename_i h
    simp only [Bool.and_eq_true, Bool.not_eq_true'] at h
    have ht := hd h.1 h.2
    split
    · exact ⟨hm, fun _ => ht, .closed hi⟩
    · exact copyInv_handleReplicationDone hm hi fun _ => ht
  · exact copyInv_handleReplicationDone hm hi hf

/-- `Terminate` before anything is final only reports. -/
theorem copyInv_terminate_of_fresh (hm : DirectMode s) (hi : Idle s) (hv : s.versStarts = 0)
    (hd : s.done = false) : CopyInv src ck (s.terminate env st) :=
  copyInv_terminate hm hi (absurd hv) (by simp [hd])

/-! ## Reading -/

/-- `Read` once `[0, mOffset)` is written: the end of the chunk finishes the copy, anything
before it goes to the peer. -/
theorem copyInv_read (hm : DirectMode s) (hi : Idle s) (hp : Progress src ck s.offset s)
    (hle : s.offset ≤ s.chunkSize) (hal : s.offset < s.chunkSize → CHECKSUM_BLOCKSIZE ∣ s.offset) :
    CopyInv src ck (s.read env oc) := by
  rw [Rep.read_of_direct hm.1]
  unfold Rep.directRead
  split
  · have he : s.offset = s.chunkSize := by omega
    refine copyInv_terminate hm hi (absurd hp.2.2.1) fun _ _ => ?_
    rw [← hp.1, ← he]
    exact hp.2.1
  · have hlt : s.offset < s.chunkSize := by omega
    exact ⟨hm, absurd hp.2.2.1, .reading ⟨rfl, hi.2.1, hi.2.2, rfl, hlt, hal hlt, rfl, hp⟩⟩

/-- `HandleStartDone` after the size reply: fail, or allocate and read from 0. -/
theorem copyInv_handleStartDone (hm : DirectMode s) (hi : Idle s) (hc : s.changeVers = false)
    (ho : s.offset = 0) (hw : s.writes = []) (hv : s.versStarts = 0) (hd : s.done = false)
    (hsz : 0 ≤ s.mdStatus → s.mdChunkSize = src.length) :
    CopyInv src ck (s.handleStartDone env oc) := by
  unfold Rep.handleStartDone
  split
  · exact copyInv_terminate_of_fresh hm hi hv hd
  · rename_i h
    have hs : s.mdChunkSize = src.length := hsz (by simp at h; omega)
    dsimp only [Rep.touchOwner]
    split
    · exact copyInv_terminate_of_fresh hm hi hv hd
    · split
      · exact copyInv_terminate_of_fresh hm hi hv hd
      · split
        · exact ⟨hm, absurd hv, .closed hi⟩
        · refine copyInv_read hm hi ⟨hs, ?_, hv, hd, hc⟩ (by dsimp only; omega)
            fun _ => by dsimp only; rw [ho]; exact Int.dvd_zero _
          rw [ho, hw]
          exact rfl

/-! ## Writing -/

/-- `WriteChunk` of `mWriteOp` at `mOffset` extends the tiling by what it carries. -/
theorem copyInv_writeChunk (hm : DirectMode s) (hi : Idle s) (hp : Progress src ck s.offset s)
    (hal : CHECKSUM_BLOCKSIZE ∣ s.offset) (hoff : s.wrOffset = s.offset) (hpos : 0 < s.wrNumBytes)
    (hdata : s.wrBuf = slice src s.offset s.wrNumBytes)
    (hck : s.wrChecksums = [] ∨ s.wrChecksums = blockCks ck s.offset s.wrNumBytes)
    (hle : s.offset + s.wrNumBytes ≤ s.chunkSize)
    (hwhole : CHECKSUM_BLOCKSIZE ∣ s.wrNumBytes ∨ s.offset + s.wrNumBytes = s.chunkSize)
    (htail : s.rdBuf ≠ [] → TailAt src ck s) : CopyInv src ck (s.writeChunk env) := by
  have ht := hp.2.1.append (WriteCall.mk s.wrOffset s.wrNumBytes s.wrBuf s.wrChecksums) hoff hal
    hpos hdata hck
  unfold Rep.writeChunk
  split
  · exact copyInv_terminate_of_fresh hm hi hp.2.2.1 hp.2.2.2.1
  · exact ⟨hm, absurd hp.2.2.1, .writing ⟨hi.1, rfl, hi.2.2, hal, hpos, hle, hwhole,
      ⟨hp.1, ht, hp.2.2⟩, htail⟩⟩

/-- `HandleReadDone`'s write of a checked read: all of it, or its whole blocks with the partial
last block of the chunk carried in `mReadOp` to a write of its own. -/
theorem copyInv_alignWrite (hm : DirectMode s) (hi : Idle s) (hp : Progress src ck s.offset s)
    (hal : CHECKSUM_BLOCKSIZE ∣ s.offset) (hst : 0 ≤ s.rdStatus) (hpos : 0 < s.rdBuf.length)
    (hdata : s.rdBuf = slice src s.offset s.rdBuf.length)
    (hck : s.rdChecksum = [] ∨ s.rdChecksum = blockCks ck s.offset s.rdBuf.length)
    (hle : s.offset + s.rdBuf.length ≤ s.chunkSize)
    (hwhole : CHECKSUM_BLOCKSIZE ∣ (s.rdBuf.length : Int) ∨
      s.offset + s.rdBuf.length = s.chunkSize) :
    CopyInv src ck (s.alignWrite.writeChunk env) := by
  have ho : 0 ≤ s.offset := hp.2.1.le
  unfold Rep.alignWrite
  dsimp only
  split
  · rename_i hgt
    split
    · rename_i hsplit
      obtain ⟨htl, hend⟩ := hsplit
      -- the write takes `q` whole-block bytes, the carried tail the remaining `r`
      generalize hq : (s.rdBuf.length : Int) - s.rdBuf.length % CHECKSUM_BLOCKSIZE = q
      generalize hr : (s.rdBuf.length : Int) % CHECKSUM_BLOCKSIZE = r at htl hq
      have hrlt : r < CHECKSUM_BLOCKSIZE := by rw [← hr]; exact Int.emod_lt_of_pos _ (by decide)
      have hqd : CHECKSUM_BLOCKSIZE ∣ q := by
        rw [← hq, ← hr]
        exact Int.dvd_sub_of_emod_eq rfl
      have hk : ((q.toNat : Nat) : Int) = q := Int.toNat_of_nonneg (by omega)
      have hkn : q.toNat ≤ s.rdBuf.length := by omega
      have hlen : (s.rdBuf.length : Int) = q + r := by omega
      refine copyInv_writeChunk hm hi hp hal rfl (by dsimp only; omega) ?_ ?_ (by dsimp only; omega)
        (.inl hqd) fun _ => ?_
      · dsimp only
        rw [take_eq_slice hdata hkn, hk]
      · dsimp only
        rcases hck with h | h
        · exact .inl (by rw [h]; rfl)
        · exact .inr (by rw [h, hlen, blockCks_dropLast ck hqd (by omega) htl hrlt])
      · have hdrop := drop_eq_slice ho hdata hkn
        rw [hk] at hdrop
        have hdl : ((s.rdBuf.drop q.toNat).length : Int) = r := by
          rw [List.length_drop]
          omega
        refine ⟨rfl, hdrop, by dsimp only; omega, by dsimp only; omega, hst, hdl.symm, ?_⟩
        dsimp only
        rw [hdl]
        rcases hck with h | h
        · exact .inl (by rw [h]; rfl)
        · exact .inr (by rw [h, hlen, blockCks_last ck hal hqd (by omega) htl hrlt])
    · rename_i hns
      have h0 : (s.rdBuf.length : Int) % CHECKSUM_BLOCKSIZE = 0 := by
        rcases hwhole with h | h
        · exact Int.emod_eq_zero_of_dvd h
        · have := Int.emod_nonneg (s.rdBuf.length : Int) (by decide : CHECKSUM_BLOCKSIZE ≠ 0)
          by_contra h'
          exact hns ⟨by omega, h⟩
      refine copyInv_writeChunk hm hi hp hal rfl ?_ ?_ ?_ ?_ ?_ fun h => absurd rfl h <;>
        simp only [h0, sub_zero]
      exacts [by omega, hdata, hck, hle, hwhole]
  · exact copyInv_writeChunk hm hi hp hal rfl (by dsimp only; omega) hdata hck hle hwhole
      fun h => absurd rfl h

/-- The checks of `HandleReadDone` after the status is settled: an error reports, a checked read
is written. -/
theorem copyInv_readDoneFinish (hm : DirectMode s) (hi : Idle s)
    (hp : Progress src ck s.offset s) (hal : CHECKSUM_BLOCKSIZE ∣ s.offset)
    (hlt : s.offset < s.chunkSize)
    (hrd : 0 ≤ s.rdStatus → 0 < s.rdBuf.length ∧ s.rdBuf = slice src s.offset s.rdBuf.length ∧
      (s.rdChecksum = [] ∨ s.rdChecksum = blockCks ck s.offset s.rdBuf.length) ∧
      s.offset + s.rdBuf.length ≤ s.chunkSize ∧
      (CHECKSUM_BLOCKSIZE ∣ (s.rdBuf.length : Int) ∨ s.offset + s.rdBuf.length = s.chunkSize)) :
    CopyInv src ck (s.readDoneFinish env) := by
  unfold Rep.readDoneFinish
  dsimp only
  split
  · have hd : ¬(s.offset = s.chunkSize ∧ 0 ≤ s.rdStatus) := by omega
    exact copyInv_terminate_of_fresh hm hi hp.2.2.1 (by simp only [hd, decide_False])
  · obtain ⟨hpos, hdata, hck, hle, hwhole⟩ := hrd (by omega)
    split
    · rename_i hbad
      exfalso
      rcases hbad with h | ⟨hne, hcnt⟩
      · exact h (Int.emod_eq_zero_of_dvd hal)
      · rcases hck with h | h
        · exact hne h
        · exact hcnt (h ▸ length_blockCks ck s.offset (by omega))
    · exact copyInv_alignWrite hm hi hp hal (by omega) hpos hdata hck hle hwhole

/-- `HandleReadDone` for a read of `mOffset` that came back as `Received` says: a cancel or an
error reports, a `-EBADCKSUM` without disk verification reads again, a short read before the
end of the chunk is `-EINVAL`, and anything else is written. -/
theorem copyInv_handleReadDone (hm : DirectMode s) (hi : Idle s)
    (hp : Progress src ck s.offset s) (hal : CHECKSUM_BLOCKSIZE ∣ s.offset)
    (hlt : s.offset < s.chunkSize) (hrc : Received src ck s) :
    CopyInv src ck (s.handleReadDone env oc) := by
  unfold Rep.handleReadDone
  split
  · exact copyInv_terminate_of_fresh hm hi hp.2.2.1 hp.2.2.2.1
  · dsimp only
    split
    · split
      · exact copyInv_read hm hi hp (by dsimp only; omega) fun _ => hal
      · exact copyInv_readDoneFinish hm hi hp hal hlt fun h => absurd h (by omega)
    · split
      · exact copyInv_readDoneFinish hm hi hp hal hlt fun h => absurd h (by dsimp only; decide)
      · rename_i hst hfull
        obtain ⟨h1, h2, h3, h4, h5, h6⟩ := hrc (by omega)
        refine copyInv_readDoneFinish hm hi hp hal hlt fun _ => ⟨by omega, h2, h3, by omega, ?_⟩
        by_cases hn : (s.rdBuf.length : Int) = s.rdNumBytes
        · rw [hn]
          exact h6
        · exact .inr (by omega)

/-- `HandleWriteDone` for the outstanding write: a cancel or an error reports, the carried tail
is written next, and otherwise the copy reads on from the new `mOffset`. -/
theorem copyInv_handleWriteDone (hm : DirectMode s) (hw : Writing src ck s) {n : Int}
    (hn : 0 ≤ st → n = s.wrNumBytes) : CopyInv src ck (s.handleWriteDone env oc st n) := by
  obtain ⟨hpo, -, hwt, hal, hpos, hle, hwhole, hp, htail⟩ := hw
  unfold Rep.handleWriteDone
  dsimp only
  split
  · exact copyInv_terminate_of_fresh hm ⟨hpo, rfl, hwt⟩ hp.2.2.1 hp.2.2.2.1
  · rename_i hok
    obtain rfl : n = s.wrNumBytes := hn (by omega)
    split
    · rename_i htl
      obtain ⟨h1, h2, h3, h4, h5, h6, h7⟩ := htail htl.2
      have hne : 0 < s.rdBuf.length := List.length_pos.mpr htl.2
      have hwd : CHECKSUM_BLOCKSIZE ∣ s.wrNumBytes := hwhole.resolve_right (by omega)
      refine copyInv_handleReadDone hm ⟨hpo, rfl, hwt⟩ hp (Int.dvd_add hal hwd) (by dsimp only; omega)
        fun _ => ⟨by dsimp only; omega, ?_, ?_, by dsimp only; omega, by dsimp only; omega,
          .inr (by dsimp only; omega)⟩
      · rw [← h1]
        exact h2
      · rw [← h1]
        exact h7
    · refine copyInv_read hm ⟨hpo, rfl, hwt⟩ hp hle fun hlt => ?_
      rcases hwhole with h | h
      · exact Int.dvd_add hal h
      · exact absurd h (by dsimp only at hlt; omega)

/-! ## Starting, cancelling, and every step -/

theorem copyInv_start {cfg : Cfg} (hm : DirectMode s) (hsz : Sizing s) (hw : s.waiting = false) :
    CopyInv src ck (s.start cfg env oc) := by
  rw [Rep.start_of_direct hm.1]
  exact ⟨hm, absurd hsz.2.2.2.2.2.1, .sizing ⟨.inr ⟨rfl, hw⟩, hsz.2⟩⟩

/-- `Cancel` from any state: with a buffer wait outstanding it reports; otherwise it only marks
the replicator and releases the staging file. -/
theorem copyInv_cancel (h : CopyInv src ck s) : CopyInv src ck (s.cancel env) := by
  obtain ⟨hm, hf, hs⟩ := h
  rw [Rep.cancel_of_direct hm.1]
  unfold Rep.cancelBase
  dsimp only
  by_cases hw : s.waiting = true
  · rw [if_pos hw]
    rcases hs with ⟨hpo, hsw, -, -, -, hv, hd⟩ | h | h | h
    · have hpo : s.peerOp = none := hpo.resolve_right fun h => by simp_all
      exact copyInv_terminate_of_fresh hm ⟨hpo, hsw, rfl⟩ hv hd
    · simp [h.2.2.1] at hw
    · simp [h.2.2.1] at hw
    · simp [h.2.2] at hw
  · rw [if_neg hw]
    refine ⟨hm, hf, ?_⟩
    rcases hs with h | h | h | h
    exacts [.sizing h, .reading h, .writing h, .closed h]

theorem copyInv_run {cfg : Cfg} (h : DirectInit s) : CopyInv src ck (s.run cfg env) := by
  obtain ⟨op, ct, lv, rsz, hl, rfl⟩ := h
  have hm : DirectMode (Rep.create op ct lv rsz) := by simp [DirectMode, Rep.create, hl]
  unfold Rep.run
  dsimp only
  split
  · exact copyInv_terminate_of_fresh hm ⟨rfl, rfl, rfl⟩ rfl rfl
  · split
    · exact copyInv_start hm ⟨.inl rfl, rfl, rfl, rfl, rfl, rfl, rfl⟩ rfl
    · exact ⟨hm, absurd rfl, .sizing ⟨.inl rfl, rfl, rfl, rfl, rfl, rfl, rfl⟩⟩

/-- Every step a direct replicator can take keeps `CopyInv`. -/
theorem copyInv_step {cfg : Cfg} {e : Event} {s' : Rep} (h : CopyInv src ck s)
    (hok : DirectOk src ck s e) (hs : step cfg env e s = some s') : CopyInv src ck s' := by
  obtain ⟨-, hen, rfl⟩ := step_eq_some hs
  have hm := h.mode
  obtain ⟨-, hrn, hq, hrr, hrc, hrg⟩ := id hm
  cases e with
  | handleInline => simp [Event.enabled, hrn] at hen
  | granted =>
    simp only [Event.enabled, hrn, Bool.not_false, Bool.true_and] at hen
    rcases h.stage with hsz | h' | h' | h'
    · have hpo : s.peerOp = none := hsz.1.resolve_right fun h => by simp_all
      exact copyInv_start (s := { s with waiting := false }) hm ⟨.inl hpo, hsz.2⟩ rfl
    · simp [h'.2.2.1] at hen
    · simp [h'.2.2.1] at hen
    · simp [h'.2.2] at hen
  | metadataDone st sz v =>
    simp only [Event.enabled, hrn, Bool.not_false, Bool.true_and, beq_iff_eq] at hen
    rcases h.stage with ⟨hpo, hsw, hcv, ho, hw, hv, hdn⟩ | h' | h' | h'
    · have hwt : s.waiting = false := by simp_all
      exact copyInv_handleStartDone hm ⟨rfl, hsw, hwt⟩ hcv ho hw hv hdn hok
    all_goals simp [h'.1] at hen
  | readDone st data cks =>
    simp only [Event.enabled, hrn, Bool.not_false, Bool.true_and, beq_iff_eq] at hen
    rcases h.stage with h' | ⟨-, hsw, hwt, hro, hlt, hal, hnb, hp⟩ | h' | h'
    · rcases h'.1 with h | ⟨h, -⟩ <;> simp [h] at hen
    · have hdef := kDefaultReplicationReadSize_eq
      refine copyInv_handleReadDone hm ⟨rfl, hsw, hwt⟩ hp hal hlt fun hst => ?_
      obtain ⟨hle, hdata, hck⟩ := hok hst
      rw [hro] at hdata hck
      refine ⟨hle, hdata, hck, by dsimp only; omega, by dsimp only; omega, ?_⟩
      dsimp only
      rw [hnb]
      rcases min_cases (s.chunkSize - s.offset) kDefaultReplicationReadSize with ⟨hmin, -⟩ | ⟨hmin, -⟩
      · exact .inr (by rw [hmin]; omega)
      · rw [hmin]
        exact .inl checksumBlock_dvd_default
    all_goals simp [h'.1] at hen
  | writeDone st n oc =>
    simp only [Event.enabled, hrn, Bool.not_false, Bool.true_and] at hen
    rcases h.stage with h' | h' | hw | h'
    · simp [h'.2.1] at hen
    · simp [h'.2.1] at hen
    · exact copyInv_handleWriteDone hm hw hok
    · simp [h'.2.1] at hen
  | changeVersDone st =>
    simp only [Event.enabled, hrn, Bool.not_false, Bool.true_and] at hen
    rcases h.stage with h' | h' | h' | hi
    · simp [h'.2.2.1] at hen
    · simp [h'.2.2.2.2.2.2.2.2.2.2.2] at hen
    · simp [h'.2.2.2.2.2.2.2.1.2.2.2.2] at hen
    · exact copyInv_handleReplicationDone (s := { s with changeVers := false }) hm hi h.final
  | cancel => exact copyInv_cancel h
  | readerDone => simp [Event.enabled, hrn, hrr] at hen
  | closeDone => simp [Event.enabled, hrn, hrc] at hen
  | readerNote => simp [Event.enabled, hrn, hrg] at hen
  | handleQueued => simp [Event.enabled, hrn, hq] at hen

/-- Every state a direct replicator reaches, against a peer serving `src`, satisfies
`CopyInv`. -/
theorem copyInv_reachable {cfg : Cfg} (h : Reachable cfg DirectInit (DirectOk src ck) s) :
    CopyInv src ck s := by
  induction h with
  | run env hi => exact copyInv_run hi
  | step _ hok hs ih => exact copyInv_step ih hok hs

/-- Direct replication copies the source exactly: once `ChangeChunkVers` has been issued, the
`WriteChunk` calls are an exact copy of `src`. -/
theorem direct_copy_exact {cfg : Cfg} (h : Reachable cfg DirectInit (DirectOk src ck) s)
    (hv : s.versStarts ≠ 0) : ExactCopy src ck s.writes :=
  ((copyInv_reachable h).final hv).exactCopy

theorem direct_copy_exact_one_byte :
    ExactCopy [7] (fun _ => 0)
      ((Event.writeDone 0 1 false).apply ⟨false, 0, false, fun _ => []⟩ Env.ok
        ((Event.readDone 0 [7] []).apply ⟨false, 0, false, fun _ => []⟩ Env.ok
          ((Event.metadataDone 0 1 1).apply ⟨false, 0, false, fun _ => []⟩ Env.ok
            ((Rep.create ⟨1, 2, 1, 2, true, 0, 0, 0, 0, 0, 0, 0, []⟩ false true 0).run
              ⟨false, 0, false, fun _ => []⟩ Env.ok)))).writes := by
  have h0 := @Reachable.run ⟨false, 0, false, fun _ => []⟩ DirectInit (DirectOk [7] fun _ => 0) _
    Env.ok ⟨⟨1, 2, 1, 2, true, 0, 0, 0, 0, 0, 0, 0, []⟩, false, true, 0, rfl, rfl⟩
  have h1 := @Reachable.step _ _ _ _ _ Env.ok (.metadataDone 0 1 1) h0 (by decide) rfl
  have h2 := @Reachable.step _ _ _ _ _ Env.ok (.readDone 0 [7] []) h1 (by decide) rfl
  have h3 := @Reachable.step _ _ _ _ _ Env.ok (.writeDone 0 1 false) h2 (by decide) rfl
  exact direct_copy_exact h3 (by decide)

end QfsReplicator
