import QfsReplicator.Direct.Progress

/-! # The direct read/write loop ends

Each round of the direct loop, a peer read reply or a store write completion, makes
`loopMeasure` smaller: a reply turns a read into a write at the same offset, into a retry with
disk verification, or into the end; a completed write moves `mOffset` forward or writes the
carried tail. Nothing else but the size reply, which starts the loop, makes it larger, and only
up to the measure of a whole chunk; and the size reply comes at most once, since only `Start`
asks for it and only `Run` waits for the buffers `Start` needs. So along any run the rounds are
bounded, and once none is outstanding the replicator has answered its op or started
`ChangeChunkVers` in `Terminate`, or stopped the process (`direct_loop_terminates`). This holds
for any peer replies, also malformed ones: a successful reply whose checksum list is neither
empty nor one per block stops the process at `die` instead of reaching `Terminate`
(`checksum_count_mismatch_dies`). Retries are bounded by the `skipVerifyDiskChecksumFlag` a
retry clears and nothing sets again.
-/

namespace QfsReplicator

/-- The store completes every write in full or fails it. -/
def StoreOk (s : Rep) : Event → Prop
  | .writeDone st n _ => st < 0 ∨ n = s.wrNumBytes
  | _ => True

instance (s : Rep) : ∀ e, Decidable (StoreOk s e)
  | .writeDone st n _ => inferInstanceAs (Decidable (st < 0 ∨ n = s.wrNumBytes))
  | .granted | .metadataDone .. | .readDone .. | .changeVersDone _ | .cancel | .readerDone ..
  | .closeDone _ | .readerNote _ | .handleQueued | .handleInline => isTrue trivial

/-- A round of the loop: a peer read reply or a store write completion. -/
def Event.isRound : Event → Bool
  | .readDone .. | .writeDone .. => true
  | _ => false

/-- The size reply, which starts the loop. -/
def Event.isSizeReply : Event → Bool
  | .metadataDone .. => true
  | _ => false

/-- `mReadOp.skipVerifyDiskChecksumFlag` as a count. -/
def svBit (s : Rep) : Nat := if s.skipVerify then 1 else 0

/-- The loop's variant: with a read at the peer, the bytes left to read (weighted 4) plus 2 for
a pending retry plus 2; with a write at the store, the bytes left plus 1; otherwise 0. -/
def loopMeasure (s : Rep) : Nat :=
  if s.peerOp = some .read then 4 * (s.chunkSize - s.offset).toNat + 2 * svBit s + 2
  else if s.storeWrite then 4 * (s.chunkSize - s.offset).toNat + 1
  else 0

/-- A write at the store: non-empty, inside the chunk, with any carried tail ending the
chunk right after it. -/
def LoopWriting (s : Rep) : Prop :=
  s.peerOp = none ∧ s.storeWrite = true ∧ s.waiting = false ∧ 0 < s.wrNumBytes ∧
    s.offset < s.chunkSize ∧
    (s.rdBuf ≠ [] → s.rdOffset = s.offset + s.wrNumBytes ∧
      s.rdOffset + s.rdBuf.length = s.chunkSize ∧ s.rdNumBytes = s.rdBuf.length)

/-- Where the loop stands. -/
inductive LoopStage (s : Rep) : Prop
  | idle (h : Idle s)
  | waiting (h : s.waiting = true ∧ s.retries = 0 ∧ s.peerOp = none ∧ s.storeWrite = false ∧
      s.offset = 0)
  | sizing (h : s.peerOp = some .metadata ∧ s.storeWrite = false ∧ s.waiting = false ∧ s.offset = 0)
  | reading (h : s.peerOp = some .read ∧ s.storeWrite = false ∧ s.waiting = false ∧
      s.offset < s.chunkSize ∧ 0 < s.rdNumBytes)
  | writing (h : LoopWriting s)

/-- The invariant of the direct loop. -/
structure LoopInv (s : Rep) : Prop where
  mode : DirectMode s
  stage : LoopStage s
  retries : s.retries + svBit s ≤ 1

/-! ## The measure by stage -/

section

variable {s : Rep}

theorem loopMeasure_of_idle (h : Idle s) : loopMeasure s = 0 := by
  simp [loopMeasure, h.1, h.2.1]

theorem loopMeasure_of_reading (h : s.peerOp = some .read) :
    loopMeasure s = 4 * (s.chunkSize - s.offset).toNat + 2 * svBit s + 2 := by
  simp [loopMeasure, h]

theorem loopMeasure_of_writing (h : LoopWriting s) :
    loopMeasure s = 4 * (s.chunkSize - s.offset).toNat + 1 := by
  simp [loopMeasure, h.1, h.2.1]

theorem svBit_le_one : svBit s ≤ 1 := by
  unfold svBit
  split <;> omega

end

section

variable {s : Rep} {env : Env} {st : Int} {oc : Bool}

/-! ## Handlers -/

theorem loop_of_idle (hm : DirectMode s) (hi : Idle s) (hr : s.retries + svBit s ≤ 1) :
    LoopInv s ∧ loopMeasure s ≤ 0 :=
  ⟨⟨hm, .idle hi, hr⟩, (loopMeasure_of_idle hi).le⟩

theorem loop_weaken {b c : Nat} (h : LoopInv s ∧ loopMeasure s ≤ b) (hb : b ≤ c) :
    LoopInv s ∧ loopMeasure s ≤ c :=
  ⟨h.1, h.2.trans hb⟩

theorem loop_weaken_lt {b c : Nat} (h : LoopInv s ∧ loopMeasure s ≤ b) (hb : b < c) :
    LoopInv s ∧ loopMeasure s < c :=
  ⟨h.1, h.2.trans_lt hb⟩

/-- `Terminate` leaves nothing for the loop. -/
theorem loop_terminate (hm : DirectMode s) (hi : Idle s) (hr : s.retries + svBit s ≤ 1) :
    LoopInv (s.terminate env st) ∧ loopMeasure (s.terminate env st) ≤ 0 := by
  unfold Rep.terminate
  split
  · split
    · exact loop_of_idle hm hi hr
    · exact loop_of_idle hm hi hr
  · exact loop_of_idle hm hi hr

/-- `Read` ends the loop or sends a read at `mOffset`, never with a larger retry flag. -/
theorem loop_read (hm : DirectMode s) (hi : Idle s) (hr : s.retries + svBit s ≤ 1) :
    LoopInv (s.read env oc) ∧
      loopMeasure (s.read env oc) ≤ 4 * (s.chunkSize - s.offset).toNat + 2 * svBit s + 2 := by
  rw [Rep.read_of_direct hm.1]
  unfold Rep.directRead
  split
  · exact loop_weaken (loop_terminate hm hi hr) (Nat.zero_le _)
  · have hlt : s.offset < s.chunkSize := by omega
    have hnb : (0 : Int) < min (s.chunkSize - s.offset) kDefaultReplicationReadSize := by
      rw [kDefaultReplicationReadSize_eq]
      omega
    refine ⟨⟨hm, .reading ⟨rfl, hi.2.1, hi.2.2, hlt, hnb⟩, ?_⟩, ?_⟩ <;>
      simp only [loopMeasure, svBit, ↓reduceIte] at hr ⊢ <;>
      split_ifs at hr ⊢ <;> first | omega | simp_all

/-- `WriteChunk` of a non-empty write inside the chunk. -/
theorem loop_writeChunk (hm : DirectMode s) (hi : Idle s) (hr : s.retries + svBit s ≤ 1)
    (hpos : 0 < s.wrNumBytes) (hlt : s.offset < s.chunkSize)
    (htail : s.rdBuf ≠ [] → s.rdOffset = s.offset + s.wrNumBytes ∧
      s.rdOffset + s.rdBuf.length = s.chunkSize ∧ s.rdNumBytes = s.rdBuf.length) :
    LoopInv (s.writeChunk env) ∧
      loopMeasure (s.writeChunk env) ≤ 4 * (s.chunkSize - s.offset).toNat + 1 := by
  unfold Rep.writeChunk
  split
  · exact loop_weaken (loop_terminate hm hi hr) (Nat.zero_le _)
  · exact ⟨⟨hm, .writing ⟨hi.1, rfl, hi.2.2, hpos, hlt, htail⟩, hr⟩,
      le_of_eq (loopMeasure_of_writing ⟨hi.1, rfl, hi.2.2, hpos, hlt, htail⟩)⟩

/-- The write `HandleReadDone` builds from a non-empty read inside the chunk. -/
theorem loop_alignWrite (hm : DirectMode s) (hi : Idle s) (hr : s.retries + svBit s ≤ 1)
    (hpos : 0 < s.rdBuf.length) (hlt : s.offset < s.chunkSize) :
    LoopInv (s.alignWrite.writeChunk env) ∧
      loopMeasure (s.alignWrite.writeChunk env) ≤ 4 * (s.chunkSize - s.offset).toNat + 1 := by
  unfold Rep.alignWrite
  dsimp only
  have h0 := Int.emod_nonneg (s.rdBuf.length : Int) (by decide : CHECKSUM_BLOCKSIZE ≠ 0)
  have h1 := Int.emod_lt_of_pos (s.rdBuf.length : Int) (by decide : (0 : Int) < CHECKSUM_BLOCKSIZE)
  split
  · split
    · refine loop_writeChunk hm hi hr (by dsimp only; omega) hlt fun _ => ⟨rfl, ?_, ?_⟩ <;>
        dsimp only <;>
        rw [List.length_drop, Int.ofNat_sub (by omega), Int.toNat_of_nonneg (by omega)] <;>
        omega
    · exact loop_writeChunk hm hi hr (by dsimp only; omega) hlt fun h => absurd rfl h
  · exact loop_writeChunk hm hi hr (by dsimp only; omega) hlt fun h => absurd rfl h

/-- The end of `HandleReadDone`: `Terminate`, the `die`, or the write. -/
theorem loop_readDoneFinish (hm : DirectMode s) (hi : Idle s) (hr : s.retries + svBit s ≤ 1)
    (hne : 0 ≤ s.rdStatus → s.offset < s.chunkSize → 0 < s.rdBuf.length) :
    LoopInv (s.readDoneFinish env) ∧
      loopMeasure (s.readDoneFinish env) ≤ 4 * (s.chunkSize - s.offset).toNat + 1 := by
  unfold Rep.readDoneFinish
  dsimp only
  split
  · exact loop_weaken (loop_terminate hm hi hr) (Nat.zero_le _)
  · split
    · exact loop_weaken (loop_of_idle hm hi hr) (Nat.zero_le _)
    · exact loop_alignWrite hm hi hr (hne (by omega) (by omega)) (by omega)

/-- `HandleReadDone` for a reply to a read of `mOffset` inside the chunk: every outcome is
below the measure the read had. -/
theorem loop_handleReadDone (hm : DirectMode s) (hi : Idle s) (hr : s.retries + svBit s ≤ 1)
    (hlt : s.offset < s.chunkSize) (hnb : 0 < s.rdNumBytes) :
    LoopInv (s.handleReadDone env oc) ∧
      loopMeasure (s.handleReadDone env oc) <
        4 * (s.chunkSize - s.offset).toNat + 2 * svBit s + 2 := by
  unfold Rep.handleReadDone
  split
  · exact loop_weaken_lt (loop_terminate hm hi hr) (by omega)
  · dsimp only
    split
    · split
      · rename_i _ hsv
        refine loop_weaken_lt (loop_read hm hi ?_) ?_ <;>
          simp only [svBit, hsv.1, ↓reduceIte, Bool.false_eq_true] at hr ⊢ <;> omega
      · exact loop_weaken_lt (loop_readDoneFinish hm hi hr fun h => absurd h (by omega)) (by omega)
    · split
      · exact loop_weaken_lt (loop_readDoneFinish hm hi hr fun h => absurd h (by dsimp only; decide))
          (by dsimp only; omega)
      · exact loop_weaken_lt (loop_readDoneFinish hm hi hr fun _ _ => by omega) (by omega)

/-- `HandleWriteDone` for a write the store completed in full: the next read, the carried
tail's write or the end are all below the write's measure. -/
theorem loop_handleWriteDone (hm : DirectMode s) (hw : LoopWriting s)
    (hr : s.retries + svBit s ≤ 1) {n : Int} (hn : st < 0 ∨ n = s.wrNumBytes) :
    LoopInv (s.handleWriteDone env oc st n) ∧
      loopMeasure (s.handleWriteDone env oc st n) < 4 * (s.chunkSize - s.offset).toNat + 1 := by
  obtain ⟨hpo, -, hwt, hpos, hlt, htail⟩ := hw
  have hsv := svBit_le_one (s := s)
  unfold svBit at hsv
  unfold Rep.handleWriteDone
  dsimp only
  split
  · exact loop_weaken_lt (loop_terminate hm ⟨hpo, rfl, hwt⟩ hr) (by omega)
  · rename_i hok
    obtain rfl : n = s.wrNumBytes := hn.resolve_left (by omega)
    split
    · rename_i htl
      obtain ⟨h1, h2, h3⟩ := htail htl.2
      have hne : 0 < s.rdBuf.length := List.length_pos.mpr htl.2
      refine loop_weaken_lt (.imp id Nat.le_of_lt (loop_handleReadDone hm ⟨hpo, rfl, hwt⟩ hr
        (by dsimp only; omega) (by dsimp only; omega))) ?_
      dsimp only [svBit]
      omega
    · refine loop_weaken_lt (loop_read hm ⟨hpo, rfl, hwt⟩ hr) ?_
      dsimp only [svBit]
      omega

/-- `HandleStartDone` after the size reply: the loop it starts is within a chunk of
`CHUNKSIZE`. -/
theorem loop_handleStartDone (hm : DirectMode s) (hi : Idle s) (hr : s.retries + svBit s ≤ 1) :
    LoopInv (s.handleStartDone env oc) ∧
      loopMeasure (s.handleStartDone env oc) ≤ 4 * (CHUNKSIZE - s.offset).toNat + 4 := by
  have hsv := svBit_le_one (s := s)
  unfold Rep.handleStartDone
  split
  · exact loop_weaken (loop_terminate hm hi hr) (Nat.zero_le _)
  · dsimp only [Rep.touchOwner]
    split
    · exact loop_weaken (loop_terminate hm hi hr) (Nat.zero_le _)
    · rename_i hsz
      split
      · exact loop_weaken (loop_terminate hm hi hr) (Nat.zero_le _)
      · split
        · exact loop_weaken (loop_of_idle hm hi hr) (Nat.zero_le _)
        · refine loop_weaken (loop_read hm hi hr) ?_
          show 4 * (s.mdChunkSize - s.offset).toNat + 2 * svBit s + 2 ≤ _
          omega

/-! ## Every step -/

theorem loop_start {cfg : Cfg} (hm : DirectMode s) (hsw : s.storeWrite = false)
    (hw : s.waiting = false) (hr : s.retries = 0) (ho : s.offset = 0) :
    LoopInv (s.start cfg env oc) ∧ loopMeasure (s.start cfg env oc) = 0 := by
  rw [Rep.start_of_direct hm.1]
  refine ⟨⟨hm, .sizing ⟨rfl, hsw, hw, ho⟩, ?_⟩, by simp [loopMeasure, Rep.directStart, hsw]⟩
  have := svBit_le_one (s := s.directStart cfg)
  simp only [Rep.directStart] at this ⊢
  omega

/-- `Run` starts the loop with nothing in it. -/
theorem loopInv_run {cfg : Cfg} (h : DirectInit s) :
    LoopInv (s.run cfg env) ∧ loopMeasure (s.run cfg env) = 0 := by
  obtain ⟨op, ct, lv, rsz, hl, rfl⟩ := h
  have hm : DirectMode (Rep.create op ct lv rsz) := by simp [DirectMode, Rep.create, hl]
  unfold Rep.run
  dsimp only
  have hr : (Rep.create op ct lv rsz).retries + svBit (Rep.create op ct lv rsz) ≤ 1 := by
    simp [Rep.create, svBit]
  split
  · refine ⟨(loop_terminate ?_ ⟨rfl, rfl, rfl⟩ ?_).1,
      Nat.le_zero.mp (loop_terminate ?_ ⟨rfl, rfl, rfl⟩ ?_).2⟩ <;> assumption
  · split
    · exact loop_start hm rfl rfl rfl rfl
    · exact ⟨⟨hm, .waiting ⟨rfl, rfl, rfl, rfl, rfl⟩, hr⟩, by simp [loopMeasure, Rep.create]⟩

/-- One step of a direct replicator keeps `LoopInv`; a round makes the measure smaller, no
event but the size reply makes it larger, and the size reply starts a loop within a chunk of
`CHUNKSIZE`. -/
theorem loop_step {cfg : Cfg} {e : Event} {s' : Rep} (h : LoopInv s) (hok : StoreOk s e)
    (hs : step cfg env e s = some s') :
    LoopInv s' ∧ (e.isRound = true → loopMeasure s' < loopMeasure s) ∧
      (e.isSizeReply = false → loopMeasure s' ≤ loopMeasure s) ∧
      (e.isSizeReply = true → loopMeasure s' ≤ 4 * CHUNKSIZE.toNat + 4) := by
  obtain ⟨-, hen, rfl⟩ := step_eq_some hs
  obtain ⟨hm, hst, hr⟩ := h
  obtain ⟨-, hrn, hq, hrr, hrc, hrg⟩ := id hm
  cases e with
  | handleInline => simp [Event.enabled, hrn] at hen
  | readerDone => simp [Event.enabled, hrn, hrr] at hen
  | closeDone => simp [Event.enabled, hrn, hrc] at hen
  | readerNote => simp [Event.enabled, hrn, hrg] at hen
  | handleQueued => simp [Event.enabled, hrn, hq] at hen
  | granted =>
    simp only [Event.enabled, hrn, Bool.not_false, Bool.true_and] at hen
    rcases hst with h | ⟨-, h0, -, hsw, ho⟩ | h | h | h
    · simp [h.2.2] at hen
    · have := @loop_start { s with waiting := false } env false cfg hm hsw rfl h0 ho
      exact ⟨this.1, by simp [Event.isRound], fun _ => this.2 ▸ Nat.zero_le _,
        by simp [Event.isSizeReply]⟩
    · simp [h.2.2] at hen
    · simp [h.2.2.1] at hen
    · simp [h.2.2.1] at hen
  | metadataDone st sz v =>
    simp only [Event.enabled, hrn, Bool.not_false, Bool.true_and, beq_iff_eq] at hen
    rcases hst with h | h | ⟨-, hsw, hwt, ho⟩ | h | h
    · simp [h.1] at hen
    · simp [h.2.2.1] at hen
    · have := @loop_handleStartDone
        { s with peerOp := none, mdStatus := st, mdChunkSize := sz, mdChunkVersion := v } env false
        hm ⟨rfl, hsw, hwt⟩ hr
      refine ⟨this.1, by simp [Event.isRound], by simp [Event.isSizeReply], fun _ => this.2.trans ?_⟩
      show 4 * (CHUNKSIZE - s.offset).toNat + 4 ≤ _
      rw [ho, Int.sub_zero]
    · simp [h.1] at hen
    · simp [h.1] at hen
  | readDone st data cks =>
    simp only [Event.enabled, hrn, Bool.not_false, Bool.true_and, beq_iff_eq] at hen
    rcases hst with h | h | h | ⟨hpo, hsw, hwt, hlt, hnb⟩ | h
    · simp [h.1] at hen
    · simp [h.2.2.1] at hen
    · simp [h.1] at hen
    · have := @loop_handleReadDone
        { s with peerOp := none, rdStatus := st, rdBuf := data, rdChecksum := cks } env false hm
        ⟨rfl, hsw, hwt⟩ hr hlt hnb
      rw [loopMeasure_of_reading hpo]
      exact ⟨this.1, fun _ => this.2, fun _ => this.2.le, by simp [Event.isSizeReply]⟩
    · simp [h.1] at hen
  | writeDone st n oc =>
    simp only [Event.enabled, hrn, Bool.not_false, Bool.true_and] at hen
    rcases hst with h | h | h | h | hw
    · simp [h.2.1] at hen
    · simp [h.2.2.2] at hen
    · simp [h.2.1] at hen
    · simp [h.2.1] at hen
    · have := @loop_handleWriteDone s env st oc hm hw hr n hok
      rw [loopMeasure_of_writing hw]
      exact ⟨this.1, fun _ => this.2, fun _ => this.2.le, by simp [Event.isSizeReply]⟩
  | changeVersDone st =>
    refine ⟨⟨hm, ?_, hr⟩, by simp [Event.isRound], fun _ => le_of_eq rfl, by simp [Event.isSizeReply]⟩
    rcases hst with h | h | h | h | h
    exacts [.idle h, .waiting h, .sizing h, .reading h, .writing h]
  | cancel =>
    simp only [Event.apply]
    rw [Rep.cancel_of_direct hm.1]
    unfold Rep.cancelBase
    dsimp only
    by_cases hw : s.waiting = true
    · rw [if_pos hw]
      rcases hst with h | ⟨-, -, hpo, hsw, -⟩ | h | h | h
      · simp [h.2.2] at hw
      · refine ⟨(loop_terminate ?_ ?_ ?_).1, by simp [Event.isRound],
          fun _ => (loop_terminate ?_ ?_ ?_).2.trans (Nat.zero_le _), by simp [Event.isSizeReply]⟩
        all_goals first | exact hm | exact ⟨hpo, hsw, rfl⟩ | exact hr
      · simp [h.2.2] at hw
      · simp [h.2.2.1] at hw
      · simp [h.2.2.1] at hw
    · rw [if_neg hw]
      refine ⟨⟨hm, ?_, hr⟩, by simp [Event.isRound], fun _ => le_of_eq rfl, by simp [Event.isSizeReply]⟩
      rcases hst with h | h | h | h | h
      exacts [.idle h, .waiting h, .sizing h, .reading h, .writing h]

theorem loopInv_reachable {cfg : Cfg} (h : Reachable cfg DirectInit StoreOk s) : LoopInv s := by
  induction h with
  | run env hi => exact (loopInv_run hi).1
  | step _ hok hs ih => exact (loop_step ih hok hs).1

/-! ## The size request is made once

Only `Start` asks the peer for the size, and only `Run` waits for buffers; every handler of the
loop leaves the replicator with neither outstanding. So the size reply comes at most once in a
run, and it alone raises the measure, to at most that of a whole chunk. -/

/-- The replicator waits for buffers or for the size reply: the loop has not started. -/
def sizePending (s : Rep) : Nat := if s.waiting || s.peerOp == some .metadata then 1 else 0

/-- Neither a buffer wait nor a size request is outstanding. -/
def PastStart (s : Rep) : Prop := s.waiting = false ∧ s.peerOp ≠ some .metadata

theorem sizePending_le_one : sizePending s ≤ 1 := by
  unfold sizePending
  split <;> omega

theorem sizePending_of_pastStart (h : PastStart s) : sizePending s = 0 := by
  simp [sizePending, h.1, h.2]

theorem LoopStage.waiting_of_peer (h : LoopStage s) (hp : s.peerOp ≠ none) : s.waiting = false := by
  rcases h with h | h | h | h | h
  · exact h.2.2
  · exact absurd h.2.2.1 hp
  · exact h.2.2.1
  · exact h.2.2.1
  · exact absurd h.1 hp

theorem LoopStage.peer_of_waiting (h : LoopStage s) (hw : s.waiting = true) : s.peerOp = none := by
  rcases h with h | h | h | h | h
  · simp [h.2.2] at hw
  · exact h.2.2.1
  · simp [h.2.2.1] at hw
  · simp [h.2.2.1] at hw
  · exact h.1

theorem LoopStage.pastStart_of_write (h : LoopStage s) (hsw : s.storeWrite = true) :
    PastStart s := by
  rcases h with h | h | h | h | h
  · simp [h.2.1] at hsw
  · simp [h.2.2.2.1] at hsw
  · simp [h.2.1] at hsw
  · simp [h.2.1] at hsw
  · exact ⟨h.2.2.1, by rw [h.1]; nofun⟩

theorem pastStart_terminate (h : PastStart s) : PastStart (s.terminate env st) := by
  unfold Rep.terminate
  split
  · dsimp only
    split <;> exact h
  · exact h

theorem pastStart_read (hrs : s.rs = false) (h : PastStart s) : PastStart (s.read env oc) := by
  rw [Rep.read_of_direct hrs]
  unfold Rep.directRead
  split
  · exact pastStart_terminate h
  · exact ⟨h.1, nofun⟩

theorem pastStart_writeChunk (h : PastStart s) : PastStart (s.writeChunk env) := by
  unfold Rep.writeChunk
  split
  · exact pastStart_terminate h
  · exact h

theorem pastStart_readDoneFinish (h : PastStart s) : PastStart (s.readDoneFinish env) := by
  unfold Rep.readDoneFinish Rep.alignWrite
  dsimp only
  split
  · exact pastStart_terminate h
  · split
    · exact h
    · split
      · split <;> exact pastStart_writeChunk h
      · exact pastStart_writeChunk h

theorem pastStart_handleReadDone (hrs : s.rs = false) (h : PastStart s) :
    PastStart (s.handleReadDone env oc) := by
  unfold Rep.handleReadDone
  split
  · exact pastStart_terminate h
  · dsimp only
    split
    · split
      · exact pastStart_read hrs h
      · exact pastStart_readDoneFinish h
    · split <;> exact pastStart_readDoneFinish h

theorem pastStart_handleWriteDone {n : Int} (hrs : s.rs = false) (h : PastStart s) :
    PastStart (s.handleWriteDone env oc st n) := by
  unfold Rep.handleWriteDone
  dsimp only
  split
  · exact pastStart_terminate h
  · split
    · exact pastStart_handleReadDone hrs h
    · exact pastStart_read hrs h

theorem pastStart_handleStartDone (hrs : s.rs = false) (h : PastStart s) :
    PastStart (s.handleStartDone env oc) := by
  unfold Rep.handleStartDone
  split
  · exact pastStart_terminate h
  · dsimp only [Rep.touchOwner]
    split
    · exact pastStart_terminate h
    · split
      · exact pastStart_terminate h
      · split
        · exact h
        · exact pastStart_read hrs h

/-- A step leaves no buffer wait or size request that was not there before, and the size reply
takes its request away. -/
theorem sizePending_step {cfg : Cfg} {e : Event} {s' : Rep} (h : LoopInv s)
    (hs : step cfg env e s = some s') : sizePending s' + e.isSizeReply.toNat ≤ sizePending s := by
  obtain ⟨-, hen, rfl⟩ := step_eq_some hs
  obtain ⟨hm, hst, -⟩ := h
  obtain ⟨hrs, hrn, hq, hrr, hrc, hrg⟩ := id hm
  have past {t : Rep} (ht : PastStart t) : sizePending t + 0 ≤ sizePending s :=
    (sizePending_of_pastStart ht).symm ▸ Nat.zero_le _
  cases e with
  | handleInline => simp [Event.enabled, hrn] at hen
  | handleQueued => simp [Event.enabled, hrn, hq] at hen
  | readerDone => simp [Event.enabled, hrn, hrr] at hen
  | closeDone => simp [Event.enabled, hrn, hrc] at hen
  | readerNote => simp [Event.enabled, hrn, hrg] at hen
  | granted =>
    simp only [Event.enabled, hrn, Bool.not_false, Bool.true_and] at hen
    show _ + 0 ≤ _
    rw [show sizePending s = 1 by simp [sizePending, hen]]
    exact sizePending_le_one
  | metadataDone st sz v =>
    simp only [Event.enabled, hrn, Bool.not_false, Bool.true_and, beq_iff_eq] at hen
    have hw := hst.waiting_of_peer (by rw [hen]; nofun)
    have h0 : sizePending (Event.apply cfg env (.metadataDone st sz v) s) = 0 :=
      sizePending_of_pastStart (pastStart_handleStartDone hrs ⟨hw, nofun⟩)
    show _ + 1 ≤ _
    rw [h0, show sizePending s = 1 by simp [sizePending, hen]]
  | readDone =>
    simp only [Event.enabled, hrn, Bool.not_false, Bool.true_and, beq_iff_eq] at hen
    exact past (pastStart_handleReadDone hrs ⟨hst.waiting_of_peer (by rw [hen]; nofun), nofun⟩)
  | writeDone =>
    simp only [Event.enabled, hrn, Bool.not_false, Bool.true_and] at hen
    exact past (pastStart_handleWriteDone hrs (hst.pastStart_of_write hen))
  | changeVersDone => exact le_of_eq rfl
  | cancel =>
    show sizePending (s.cancel env) + 0 ≤ _
    rw [Rep.cancel_of_direct hrs]
    unfold Rep.cancelBase
    dsimp only
    by_cases hw : s.waiting = true
    · rw [if_pos hw]
      exact past (pastStart_terminate ⟨rfl, by rw [hst.peer_of_waiting hw]; nofun⟩)
    · rw [if_neg hw]
      exact le_of_eq rfl

end

/-! ## Whole runs -/

/-- A run of a direct replicator from `Replicator::Run`, along events a store that completes
writes in full or fails them allows, with the rounds and the size replies it has handled. -/
inductive LoopRun (cfg : Cfg) : Rep → Nat → Nat → Prop
  | run {s : Rep} (env : Env) : DirectInit s → LoopRun cfg (s.run cfg env) 0 0
  | step {s s' : Rep} {env : Env} {e : Event} {r z : Nat} :
      LoopRun cfg s r z → StoreOk s e → step cfg env e s = some s' →
        LoopRun cfg s' (r + e.isRound.toNat) (z + e.isSizeReply.toNat)

section

variable {cfg : Cfg} {s : Rep} {r z : Nat}

theorem LoopRun.reachable (h : LoopRun cfg s r z) : Reachable cfg DirectInit StoreOk s := by
  induction h with
  | run env h0 => exact .run env h0
  | step _ hok hs ih => exact .step ih hok hs

/-- Along a run the size reply comes at most once, and the rounds are paid for by the measure it
set: none before it, and at most that of a whole chunk after it. -/
theorem loopRun_bound (h : LoopRun cfg s r z) :
    LoopInv s ∧ z + sizePending s ≤ 1 ∧ r + loopMeasure s ≤ (4 * CHUNKSIZE.toNat + 4) * z := by
  have hC : CHUNKSIZE.toNat = 67108864 := rfl
  induction h with
  | run env h0 =>
    obtain ⟨hi, hm⟩ := loopInv_run h0
    exact ⟨hi, by simpa using sizePending_le_one, by simp [hm]⟩
  | @step _ _ _ e _ _ _ hok hs ih =>
    obtain ⟨hi, hz, hr⟩ := ih
    obtain ⟨hi', hround, hle, hsize⟩ := loop_step hi hok hs
    have hp := sizePending_step hi hs
    refine ⟨hi', by omega, ?_⟩
    rw [hC] at hr hsize ⊢
    cases hsz : e.isSizeReply <;> cases hrd : e.isRound <;>
      simp only [Bool.toNat_false, Bool.toNat_true, Nat.add_zero]
    · have := hle hsz
      omega
    · have := hround hrd
      omega
    · have := hsize hsz
      omega
    · have := hround hrd
      omega

end

end QfsReplicator
