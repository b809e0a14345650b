import QfsReplicator.Recovery.Layout
import QfsReplicator.Lifecycle.Discipline

/-! # Recovery neither loses nor duplicates bytes

The recovery replicator asks the reader for `mReadSize` bytes at `mOffset + |mReadTail|` and
`Done` checks the answer against `chunkOffset + mOffset`. Since `GetReadSize` reads whole
checksum blocks, a buffer that does not end the chunk is whole blocks too: `mReadTail` stays
empty, the two positions agree, and `Done`'s "invalid read completion" is never reached. Each
buffer is written at once, whole blocks first and a final partial block on its own, so once
`ChangeChunkVers` has been issued the writes carry exactly the bytes the reader delivered
(`rs_recovery_exact`).

The ghost `received` holds the bytes of every buffer `Done` took as read data. `Written`,
`Storing` and `Arrived` say where those bytes are: all written, one write at the store, or just
delivered to `HandleReadDone`. They hold while the replicator owns its op, no cancel is
pending and nothing is final; `RecBase` holds throughout.
-/

namespace QfsReplicator

/-- The reader answers each `Read` at the position it was asked for, `chunkOffset` plus the
requested offset, reporting at most `mReadSize` bytes and delivering at most that many as read
data; the store writes whole requests. -/
def RecoveryOk (s : Rep) : Event → Prop
  | .readerDone _ off sz none => off = s.op.chunkOffset + s.reqOffset ∧ sz ≤ s.readSize
  | .readerDone st off sz (some b) => off = s.op.chunkOffset + s.reqOffset ∧ sz ≤ s.readSize ∧
      (st = 0 → (b.length : Int) ≤ s.readSize)
  | .writeDone st n _ => 0 ≤ st → n = s.wrNumBytes
  | _ => True

instance (s : Rep) : ∀ e, Decidable (RecoveryOk s e)
  | .readerDone _ off sz none =>
    inferInstanceAs (Decidable (off = s.op.chunkOffset + s.reqOffset ∧ sz ≤ s.readSize))
  | .readerDone st off sz (some b) =>
    inferInstanceAs (Decidable (off = s.op.chunkOffset + s.reqOffset ∧ sz ≤ s.readSize ∧
      (st = 0 → (b.length : Int) ≤ s.readSize)))
  | .writeDone st n _ => inferInstanceAs (Decidable (0 ≤ st → n = s.wrNumBytes))
  | .granted | .metadataDone .. | .readDone .. | .changeVersDone _ | .cancel | .closeDone _
  | .readerNote _ | .handleQueued | .handleInline => isTrue trivial

/-! ## Where the received bytes are -/

/-- The chunk size is still the `CHUNKSIZE` `Start` set, or the one `Done` fixed within
`sRSReaderMaxRecoverChunkSize`. -/
def Sized (cfg : Cfg) (s : Rep) : Prop :=
  s.chunkSize = CHUNKSIZE ∨ s.chunkSize ≤ cfg.maxRecoverChunkSize

/-- The layout may still grow: every write so far is whole blocks, `mOffset` is on a block, and
no close of the reader is pending. -/
def Open (s : Rep) : Prop :=
  WholeBlocks s.writes ∧ CHECKSUM_BLOCKSIZE ∣ s.offset ∧ s.pendingClose = false

/-- Every received byte is written, up to `mOffset`; a read is in flight only while the layout
is open and short of the chunk's end. -/
def Written (s : Rep) : Prop :=
  Lays 0 s.writes s.offset ∧ (s.writes.map WriteCall.data).flatten = s.received ∧ s.rdBuf = [] ∧
    WholeBlocks s.writes.dropLast ∧ (Open s ∨ s.chunkSize = s.offset) ∧
    (s.readInFlight = true → Open s ∧ s.offset < s.chunkSize)

/-- A write of `wrNumBytes` bytes at `mOffset` is at the store. Behind it either nothing is
left, or the final partial block `HandleReadDone` kept in `mReadOp`, which ends the chunk. -/
def Storing (cfg : Cfg) (s : Rep) : Prop :=
  Lays 0 s.writes (s.offset + s.wrNumBytes) ∧
    (s.writes.map WriteCall.data).flatten ++ s.rdBuf = s.received ∧
    WholeBlocks s.writes.dropLast ∧ Sized cfg s ∧
    (s.rdBuf = [] → Open { s with offset := s.offset + s.wrNumBytes } ∨
      s.chunkSize = s.offset + s.wrNumBytes) ∧
    (s.rdBuf ≠ [] → s.rdOffset = s.offset + s.wrNumBytes ∧ WholeBlocks s.writes ∧
      CHECKSUM_BLOCKSIZE ∣ s.rdOffset ∧ (s.rdBuf.length : Int) = s.rdNumBytes ∧
      s.rdOffset + s.rdBuf.length = s.chunkSize)

/-- What `HandleReadDone` is given: the received bytes not yet written are in `mReadOp`, and
either end the chunk or are whole blocks short of its end; with none, the chunk is done, the
read failed, or some bytes were asked for. -/
def Arrived (cfg : Cfg) (s : Rep) : Prop :=
  Lays 0 s.writes s.offset ∧ (s.writes.map WriteCall.data).flatten ++ s.rdBuf = s.received ∧
    WholeBlocks s.writes.dropLast ∧ Sized cfg s ∧
    (s.rdBuf = [] → s.chunkSize ≤ s.offset ∨ s.rdStatus < 0 ∨ 0 < s.rdNumBytes) ∧
    (s.rdBuf ≠ [] → WholeBlocks s.writes ∧ CHECKSUM_BLOCKSIZE ∣ s.offset ∧
      (s.rdBuf.length : Int) = s.rdNumBytes ∧
      (s.offset + s.rdBuf.length = s.chunkSize ∨
        (CHECKSUM_BLOCKSIZE ∣ (s.rdBuf.length : Int) ∧ s.offset + s.rdBuf.length < s.chunkSize ∧
          s.pendingClose = false)))

/-- The recovery is exact: the writes carry the received bytes, which make the whole chunk and
fit `sRSReaderMaxRecoverChunkSize`. -/
def Final (cfg : Cfg) (s : Rep) : Prop :=
  ExactRecovery s.received s.writes ∧ s.chunkSize = s.received.length ∧
    (s.received.length : Int) ≤ cfg.maxRecoverChunkSize

/-- Where the bytes are, by the claimed state: a start still to run finds the layout open and
asks for `CHUNKSIZE`, a read runs on a sized chunk, and with no write at the store everything
received is written. -/
def Stage (cfg : Cfg) (s : Rep) : Prop :=
  (s.state = .kStart ∨ s.waiting = true → Open s) ∧ (s.state = .kStart → s.mdChunkSize = CHUNKSIZE) ∧
    (s.state = .kRead → Sized cfg s) ∧ (s.storeWrite = false → Written s)

/-- What a recovery never changes once `Replicator::Run` has accepted it, and what it keeps
empty: whole-block reads at a non-negative chunk offset, no tail carried to a `Read`. -/
def Fixed (s : Rep) : Prop :=
  s.rs = true ∧
    (CHECKSUM_BLOCKSIZE ∣ s.readSize ∧ CHECKSUM_BLOCKSIZE ≤ s.readSize ∧ 0 ≤ s.op.chunkOffset) ∧
    s.readTail = [] ∧ s.reqTail = 0

/-- A read in flight was asked for at `mOffset`, just past the received bytes, for `mReadSize`
bytes, with no close pending and no failure recorded in `mReadOp`; the reader owes its completion
unless it was detached. -/
def InFlight (s : Rep) : Prop :=
  s.readInFlight = true → s.reqOffset = s.offset ∧ s.rdNumBytes = s.readSize ∧ 0 ≤ s.offset ∧
    s.offset = s.received.length ∧ s.pendingClose = false ∧
    (s.readerReads = 1 ∨ (s.readerRegistered = false ∧ s.readerClose = false)) ∧ s.rdStatus = 0

/-- What holds all along a recovery: the fixed parts, the read in flight, the bound on what was
received once anything was, and an exact recovery once the chunk is done. -/
def RecBase (cfg : Cfg) (s : Rep) : Prop :=
  Fixed s ∧ InFlight s ∧
    (s.received ≠ [] → (s.received.length : Int) ≤ cfg.maxRecoverChunkSize) ∧
    (s.done = true → s.versStarts ≠ 0) ∧ (s.versStarts ≠ 0 → Final cfg s)

/-- The recovery invariant: until the op is answered, a started `ChangeChunkVers` is still
outstanding, and before it a write at the store is laid out, as is, with no cancel pending,
whatever the claimed state needs. -/
def RecInv (cfg : Cfg) (s : Rep) : Prop :=
  RecBase cfg s ∧ (s.owner = true → s.versStarts ≠ 0 → s.changeVers = true) ∧
    (s.owner = true → s.versStarts = 0 →
      (s.storeWrite = true → Storing cfg s) ∧ (s.pendingCancel = false → Stage cfg s))

/-- After a step: `Done`'s "invalid read completion" is not the `die` that stopped the process,
and a live replicator keeps the invariant. -/
def RecOut (cfg : Cfg) (s : Rep) : Prop :=
  s.dead ≠ some "recovery: invalid read completion" ∧ (s.dead = none → RecInv cfg s)

section

variable {cfg : Cfg} {s : Rep} {env : Env} {oc : Bool} {st : Int}

/-! ## Dies, the end, and the hand-off -/

/-- A message that starts with `q` is not `r` when `q` is not a prefix of `r`. -/
theorem ne_of_lead {m r : String} (q : String) (hq : q.data <+: m.data)
    (h : ¬q.data <+: r.data) : m ≠ r :=
  fun e => h (e ▸ hq)

theorem recOut_die {m : String} (hm : m ≠ "recovery: invalid read completion") :
    RecOut cfg (s.die m) :=
  ⟨fun h => hm (Option.some.inj h), nofun⟩

theorem recOut_of_inv (h : RecInv cfg s) (hd : s.dead = none) : RecOut cfg s :=
  ⟨by rw [hd]; exact nofun, fun _ => h⟩

/-- The invariant before `ChangeChunkVers`. -/
theorem recInv_mk (hb : RecBase cfg s) (hv : s.versStarts = 0)
    (hw : s.storeWrite = true → Storing cfg s)
    (hs : s.owner = true → s.pendingCancel = false → Stage cfg s) : RecInv cfg s :=
  ⟨hb, fun _ h => absurd hv h, fun ho _ => ⟨hw, hs ho⟩⟩

/-- No read in flight, nothing owed about it. -/
theorem inFlight_of_idle (hr : s.readInFlight = false) : InFlight s :=
  fun h => Bool.noConfusion (h.symm.trans hr)

/-- No stage is owed once the op is answered. -/
theorem recInv_handleReplicationDone (h : RecBase cfg s) :
    RecInv cfg (s.handleReplicationDone st) :=
  ⟨h, nofun, nofun⟩

/-- `Terminate` keeps the invariant: a finished copy is already exact, and its
`ChangeChunkVers` is outstanding or answered. -/
theorem recOut_terminate (h : RecBase cfg s) (hd : s.dead = none) :
    RecOut cfg (s.terminate env st) := by
  unfold Rep.terminate
  split
  · rename_i hdn
    have hf : Final cfg s := h.2.2.2.2 (h.2.2.2.1 (by simp_all))
    obtain ⟨h1, h2, h3, -, -⟩ := h
    have hb : RecBase cfg { s with versStarts := s.versStarts + 1 } :=
      ⟨h1, h2, h3, fun _ => Nat.succ_ne_zero _, fun _ => hf⟩
    dsimp only
    split
    · exact recOut_of_inv ⟨hb, fun _ _ => rfl, fun _ h => absurd h (Nat.succ_ne_zero _)⟩ hd
    · exact recOut_of_inv (recInv_handleReplicationDone hb) hd
  · exact recOut_of_inv (recInv_handleReplicationDone h) hd

/-- `HandleReadDone` finding the chunk done with everything written starts `ChangeChunkVers`
on an exact recovery. -/
theorem recOut_finalize (h : RecBase cfg s) (hf : Final cfg s) (hcf : s.cancelFlag = false)
    (hd : s.dead = none) : RecOut cfg ({ s with done := true }.terminate env st) := by
  obtain ⟨h1, h2, h3, -, -⟩ := h
  have hb : RecBase cfg { s with done := true, versStarts := s.versStarts + 1 } :=
    ⟨h1, h2, h3, fun _ => Nat.succ_ne_zero _, fun _ => hf⟩
  unfold Rep.terminate
  rw [if_pos (by simp [hcf])]
  dsimp only
  split
  · exact recOut_of_inv ⟨hb, fun _ _ => rfl, fun _ h => absurd h (Nat.succ_ne_zero _)⟩ hd
  · exact recOut_of_inv (recInv_handleReplicationDone hb) hd

/-- `Enqueue` of a transition, with no cancel pending, either claims it or dies with a message
of its own. -/
theorem recOut_enqueue {inState : State} (hd : s.dead = none) (hpc : s.pendingCancel = false)
    (h : RecInv cfg { s with state := inState }) : RecOut cfg (s.enqueue oc inState) := by
  unfold Rep.enqueue
  rw [if_neg (by simp [hpc])]
  split
  · exact recOut_die (ne_of_lead "recovery: invalid state transtion from: "
      (by simp only [String.data_append, List.append_assoc]; exact List.prefix_append _ _)
      (by decide))
  · unfold Rep.post
    split
    · exact recOut_of_inv h hd
    · exact recOut_of_inv h hd

/-! ## Storing what arrived -/

/-- A recovery at rest, with no read in flight and nothing final, keeps its base facts. -/
theorem recBase_idle (hf : Fixed s) (hr : s.readInFlight = false)
    (hbd : s.received ≠ [] → (s.received.length : Int) ≤ cfg.maxRecoverChunkSize)
    (hdn : s.done = false) (hv : s.versStarts = 0) : RecBase cfg s :=
  ⟨hf, inFlight_of_idle hr, hbd, fun h => absurd h (by simp [hdn]), fun h => absurd hv h⟩

/-- Nothing is done before the chunk is final. -/
theorem done_of_recBase (h : RecBase cfg s) (hv : s.versStarts = 0) : s.done = false := by
  cases hdn : s.done
  · rfl
  · exact absurd hv (h.2.2.2.1 hdn)

/-- A chunk of the received bytes' size is within `sRSReaderMaxRecoverChunkSize`: either `Done`
fixed its size within it, or it is a whole `CHUNKSIZE` of received bytes. -/
theorem bound_of_sized (hb : RecBase cfg s) (hs : Sized cfg s)
    (hc : s.chunkSize = s.received.length) :
    (s.received.length : Int) ≤ cfg.maxRecoverChunkSize := by
  rcases hs with h | h
  · refine hb.2.2.1 fun h0 => ?_
    have hpos : (0 : Int) < CHUNKSIZE := by decide
    simp only [h0, List.length_nil, Nat.cast_zero] at hc
    omega
  · omega

/-- The write `HandleReadDone` submits is at the store, or its failure ends the recovery. -/
theorem recOut_writeChunk (hf : Fixed s) (hr : s.readInFlight = false)
    (hbd : s.received ≠ [] → (s.received.length : Int) ≤ cfg.maxRecoverChunkSize)
    (hdn : s.done = false) (hv : s.versStarts = 0) (hk : s.state = .kNone)
    (hw : s.waiting = false) (hd : s.dead = none)
    (hwr : Storing cfg { s with
      writes := s.writes ++ [⟨s.wrOffset, s.wrNumBytes, s.wrBuf, s.wrChecksums⟩]
      storeWrite := true }) :
    RecOut cfg (s.writeChunk env) := by
  unfold Rep.writeChunk
  dsimp only
  split
  · exact recOut_terminate (recBase_idle hf hr hbd hdn hv) hd
  · exact recOut_of_inv (recInv_mk (recBase_idle hf hr hbd hdn hv) hv (fun _ => hwr) fun _ _ =>
      ⟨fun h => by simp [hk, hw] at h, fun h => by simp [hk] at h, fun h => by simp [hk] at h,
        nofun⟩) hd

/-- `HandleReadDone` splits what arrived into whole blocks and, at the end of the chunk, a
final partial block for a write of its own; the write it submits extends the layout. -/
theorem recOut_alignWrite (hb : RecBase cfg s) (hv : s.versStarts = 0)
    (hr : s.readInFlight = false) (hk : s.state = .kNone) (hw : s.waiting = false)
    (hd : s.dead = none) (ha : Arrived cfg s) (hne : s.rdBuf ≠ []) :
    RecOut cfg (s.alignWrite.writeChunk env) := by
  have hdn := done_of_recBase hb hv
  obtain ⟨hl, hj, -, hsz, -, hfull⟩ := ha
  obtain ⟨hwb, hoff, -, hend⟩ := hfull hne
  have hpos : 0 < s.rdBuf.length := List.length_pos.mpr hne
  have hcb : (0 : Int) < CHECKSUM_BLOCKSIZE := by decide
  have ht0 := Int.emod_nonneg (s.rdBuf.length : Int) hcb.ne'
  have ht1 := Int.emod_lt_of_pos (s.rdBuf.length : Int) hcb
  have hwhole (n : Int) (hn : CHECKSUM_BLOCKSIZE ∣ n) (w : WriteCall) (hw : w.numBytes = n) :
      WholeBlocks (s.writes ++ [w]) := by
    intro x hx
    rcases List.mem_append.mp hx with hx | hx
    · exact hwb x hx
    · rw [List.mem_singleton.mp hx, hw]
      exact hn
  have writing_whole : Storing cfg { s with
      writes := s.writes ++ [⟨s.offset, s.rdBuf.length, s.rdBuf, s.rdChecksum⟩]
      wrOffset := s.offset
      wrNumBytes := s.rdBuf.length
      wrChecksums := s.rdChecksum
      wrBuf := s.rdBuf
      rdBuf := []
      storeWrite := true } := by
    refine ⟨hl.append _ rfl (by dsimp only; omega) rfl, by simpa using hj,
      by rw [List.dropLast_concat]; exact hwb, hsz, fun _ => ?_, fun h => absurd rfl h⟩
    rcases hend with he | ⟨hd, -, hpc⟩
    · exact .inr he.symm
    · exact .inl ⟨hwhole _ hd _ rfl, Int.dvd_add hoff hd, hpc⟩
  unfold Rep.alignWrite
  dsimp only
  split
  · split
    · rename_i hgt hsplit
      have hk' : (((s.rdBuf.length : Int) - (s.rdBuf.length : Int) % CHECKSUM_BLOCKSIZE).toNat :
          Int) = s.rdBuf.length - (s.rdBuf.length : Int) % CHECKSUM_BLOCKSIZE :=
        Int.toNat_of_nonneg (by omega)
      refine recOut_writeChunk hb.1 hr hb.2.2.1 hdn hv hk hw hd ?_
      dsimp only
      refine ⟨hl.append _ rfl (by dsimp only; omega) ?_, ?_, by rw [List.dropLast_concat]; exact hwb,
        hsz, fun h => ?_, fun _ => ⟨rfl, hwhole _ (Int.dvd_sub_of_emod_eq rfl) _ rfl, ?_, ?_, ?_⟩⟩
      · simp only [List.length_take]
        omega
      · simpa only [List.map_append, List.flatten_append, List.map_cons, List.map_nil,
          List.flatten_cons, List.flatten_nil, List.append_nil, List.append_assoc,
          List.take_append_drop] using hj
      · have := congrArg List.length h
        simp only [List.length_drop, List.length_nil] at this
        omega
      · exact Int.dvd_add hoff (Int.dvd_sub_of_emod_eq rfl)
      · simp only [List.length_drop]
        omega
      · simp only [List.length_drop]
        omega
    · rename_i hgt hns
      have htail : (s.rdBuf.length : Int) % CHECKSUM_BLOCKSIZE = 0 := by
        rcases hend with he | ⟨hd, -⟩
        · have : ¬(s.rdBuf.length : Int) % CHECKSUM_BLOCKSIZE > 0 := fun h => hns ⟨h, he⟩
          omega
        · exact Int.emod_eq_zero_of_dvd hd
      simp only [htail, sub_zero]
      exact recOut_writeChunk hb.1 hr hb.2.2.1 hdn hv hk hw hd writing_whole
  · exact recOut_writeChunk hb.1 hr hb.2.2.1 hdn hv hk hw hd writing_whole

/-- The end of `HandleReadDone`: a done chunk finalizes exactly, a failure terminates, and
whatever arrived is written. -/
theorem recOut_readDoneFinish (hb : RecBase cfg s) (hv : s.versStarts = 0) (ha : Arrived cfg s)
    (hz : s.rdBuf = [] → s.chunkSize ≤ s.offset ∨ s.rdStatus < 0) (hcf : s.cancelFlag = false)
    (hr : s.readInFlight = false) (hk : s.state = .kNone) (hw : s.waiting = false)
    (hd : s.dead = none) : RecOut cfg (s.readDoneFinish env) := by
  have hdn := done_of_recBase hb hv
  obtain ⟨hl, hj, hwl, hsz, -, hfull⟩ := id ha
  unfold Rep.readDoneFinish
  dsimp only
  split
  · by_cases hfin : s.offset = s.chunkSize ∧ 0 ≤ s.rdStatus
    · have h0 : s.rdBuf = [] := by
        by_contra hne
        have := List.length_pos.mpr hne
        rcases (hfull hne).2.2.2 with h | ⟨-, h, -⟩ <;> omega
      have hjr : (s.writes.map WriteCall.data).flatten = s.received := by simpa [h0] using hj
      have hlen := hl.length
      rw [hjr] at hlen
      have hf : Final cfg s :=
        ⟨hjr ▸ hl.exactRecovery hwl, by omega, bound_of_sized hb hsz (by omega)⟩
      simp only [decide_eq_true hfin]
      exact recOut_finalize hb hf hcf hd
    · simp only [decide_eq_false hfin]
      exact recOut_terminate (recBase_idle hb.1 hr hb.2.2.1 rfl hv) hd
  · split
    · exact recOut_die (by decide)
    · rename_i hn _
      have hne : s.rdBuf ≠ [] := fun h0 => hn ((hz h0).symm.imp id id)
      exact recOut_alignWrite hb hv hr hk hw hd ha hne

/-- `HandleReadDone` of a recovery: the retry of an unverified read is for the direct
replicator only; a short read before the end of the chunk fails. -/
theorem recOut_handleReadDone (hb : RecBase cfg s) (hv : s.versStarts = 0) (ha : Arrived cfg s)
    (hcf : s.cancelFlag = false) (hsv : s.skipVerify = false) (hr : s.readInFlight = false)
    (hk : s.state = .kNone) (hw : s.waiting = false) (hd : s.dead = none) :
    RecOut cfg (s.handleReadDone env oc) := by
  unfold Rep.handleReadDone
  rw [if_neg (by simp [hcf])]
  dsimp only
  split
  · rename_i hneg
    rw [if_neg (by simp [hsv])]
    exact recOut_readDoneFinish hb hv ha (fun _ => .inr hneg) hcf hr hk hw hd
  · split
    · have hneg : -EINVAL < 0 := by decide
      obtain ⟨hl, hj, hwl, hsz, -, hfull⟩ := ha
      exact recOut_readDoneFinish ⟨hb.1, inFlight_of_idle hr, hb.2.2⟩ hv
        ⟨hl, hj, hwl, hsz, fun _ => .inr (.inl hneg), hfull⟩
        (fun _ => .inr hneg) hcf hr hk hw hd
    · rename_i hneg hshort
      refine recOut_readDoneFinish hb hv ha (fun h0 => ?_) hcf hr hk hw hd
      rw [h0] at hshort
      simp only [List.length_nil, Nat.cast_zero, add_zero, not_and, not_lt] at hshort
      rcases ha.2.2.2.2.1 h0 with h | h | h
      · exact .inl h
      · exact absurd h hneg
      · exact .inl (hshort h)

/-! ## The client thread's handlers -/

/-- A client-thread handler runs with nothing outstanding, for a replicator that owns its op,
has no cancel pending and is not final. -/
def Calm (s : Rep) : Prop :=
  s.readInFlight = false ∧ s.waiting = false ∧ s.storeWrite = false ∧ s.owner = true ∧
    s.pendingCancel = false ∧ s.cancelFlag = false ∧ s.skipVerify = false ∧ s.dead = none ∧
    s.versStarts = 0

/-- `Read` claims `kRead` and posts `Handle()` on a sized chunk with everything received
written; with a cancel pending it does nothing. -/
theorem recOut_read (hb : RecBase cfg s) (hv : s.versStarts = 0) (hr : s.readInFlight = false)
    (hw : s.waiting = false) (hsw : s.storeWrite = false) (hd : s.dead = none)
    (hwr : s.pendingCancel = false → Written s ∧ Sized cfg s) : RecOut cfg (s.read env oc) := by
  have hbase : RecBase cfg s := recBase_idle hb.1 hr hb.2.2.1 (done_of_recBase hb hv) hv
  have hnw : s.storeWrite = true → Storing cfg s := fun h => by simp [hsw] at h
  unfold Rep.read
  rw [if_pos hb.1.1]
  unfold Rep.rsRead
  split
  · exact recOut_of_inv (recInv_mk hbase hv hnw fun _ h => by simp_all) hd
  · rename_i hpc
    have hpc : s.pendingCancel = false := by simpa using hpc
    obtain ⟨hwr, hsz⟩ := hwr hpc
    exact recOut_enqueue hd hpc (recInv_mk hbase hv hnw fun _ _ =>
      ⟨fun h => by simp [hw] at h, nofun, fun _ => hsz, fun _ => hwr⟩)

/-- `HandleStartDone` of a recovery: the size is `CHUNKSIZE` until the reader ends the chunk;
after the allocation the first read is posted, on an open layout. -/
theorem recOut_handleStartDone (hb : RecBase cfg s) (hc : Calm s)
    (hmd : s.mdChunkSize = CHUNKSIZE) (hop : Open s) (hwr : Written s) :
    RecOut cfg (s.handleStartDone env oc) := by
  obtain ⟨hr, hw, hsw, -, -, -, -, hd, hv⟩ := hc
  have hdn := done_of_recBase hb hv
  obtain ⟨hl, hj, hrd, hwl, -, -⟩ := hwr
  unfold Rep.handleStartDone
  by_cases h1 : (s.cancelFlag || decide (s.mdStatus < 0)) = true
  · rw [if_pos h1]; exact recOut_terminate (recBase_idle hb.1 hr hb.2.2.1 hdn hv) hd
  rw [if_neg h1]
  dsimp only
  by_cases h2 : s.mdChunkSize < 0 ∨ s.mdChunkSize > CHUNKSIZE
  · rw [if_pos h2]; exact recOut_terminate (recBase_idle hb.1 hr hb.2.2.1 hdn hv) hd
  rw [if_neg h2]
  by_cases h3 : env.allocStatus < 0
  · rw [if_pos h3]; exact recOut_terminate (recBase_idle hb.1 hr hb.2.2.1 hdn hv) hd
  rw [if_neg h3]
  by_cases h4 : env.allocNullHandle = true
  · rw [if_pos h4]; exact recOut_die (by decide)
  rw [if_neg h4]
  exact recOut_read (recBase_idle hb.1 hr hb.2.2.1 hdn hv) hv hr hw hsw hd fun _ =>
    ⟨⟨hl, hj, hrd, hwl, .inl hop, fun h => Bool.noConfusion (h.symm.trans hr)⟩, .inl hmd⟩

/-- `HandleCompletion` of a size reply releases `kStart` and runs `HandleStartDone`. -/
theorem recOut_completeStart (hb : RecBase cfg s) (hc : Calm s)
    (hmd : s.mdChunkSize = CHUNKSIZE) (hop : Open s) (hwr : Written s) :
    RecOut cfg (s.handleCompletion env oc true) := by
  unfold Rep.handleCompletion
  rw [if_neg (by simp [hc.2.2.2.2.1])]
  exact recOut_handleStartDone hb hc hmd hop hwr

/-- `HandleCompletion` of a read releases `kRead` and runs `HandleReadDone`, unless a cancel
is pending. -/
theorem recOut_completeRead (hb : RecBase cfg s) (hv : s.versStarts = 0)
    (hsw : s.storeWrite = false) (ha : s.pendingCancel = false → Arrived cfg s)
    (hr : s.readInFlight = false) (hw : s.waiting = false) (hsv : s.skipVerify = false)
    (hrc : s.cancelFlag = true → s.pendingCancel = true) (hd : s.dead = none) :
    RecOut cfg (s.handleCompletion env oc false) := by
  unfold Rep.handleCompletion
  dsimp only
  split
  · rename_i hpc
    exact recOut_of_inv (recInv_mk hb hv (fun h => by simp [hsw] at h)
      fun _ h => by simp [hpc] at h) hd
  · rename_i hpc
    have hpc : s.pendingCancel = false := by simpa using hpc
    have hcf : s.cancelFlag = false := by
      cases h : s.cancelFlag
      · rfl
      · simp [hrc h] at hpc
    exact recOut_handleReadDone hb hv (ha hpc) hcf hsv hr rfl hw hd

/-- `HandleStart` opens the reader and completes the start. -/
theorem recOut_handleStart (hb : RecBase cfg s) (hc : Calm s) (hmd : s.mdChunkSize = CHUNKSIZE)
    (hop : Open s) (hwr : Written s) : RecOut cfg (s.handleStart env oc) := by
  -- every path only sets `mdStatus` and `ownerAfterDone` before the completion
  have key (m : Int) (o : Bool) :
      RecOut cfg ({ s with mdStatus := m, ownerAfterDone := o }.handleCompletion env oc true) :=
    recOut_completeStart hb hc hmd hop hwr
  unfold Rep.handleStart
  split
  · exact recOut_die (by decide)
  · dsimp only
    repeat' split
    all_goals exact key _ _

/-- `HandleRead` completes at the end of the chunk or after an error, and otherwise issues one
reader `Read` at `mOffset`: the tail is empty. -/
theorem recOut_handleRead (hb : RecBase cfg s) (hc : Calm s) (hrr : s.readerReads = 0)
    (hk : s.state = .kRead) (hsz : Sized cfg s) (hwr : Written s) :
    RecOut cfg (s.handleRead env oc) := by
  obtain ⟨hr, hw, hsw, -, hpc, hcf, hsv, hd, hv⟩ := hc
  obtain ⟨hf, -, hbd, hdn, -⟩ := hb
  obtain ⟨hl, hj, hrd, hwl, hopen, -⟩ := hwr
  have hrc : s.cancelFlag = true → s.pendingCancel = true := by simp [hcf]
  have hlen := hl.length
  rw [hj] at hlen
  unfold Rep.handleRead
  split
  · rename_i hend
    refine recOut_completeRead ⟨hf, inFlight_of_idle hr, hbd, hdn, fun h => absurd hv h⟩
      hv hsw (fun _ => ⟨hl, by simpa [hrd] using hj, hwl, hsz, fun _ => ?_, fun h => absurd hrd h⟩)
      hr hw hsv hrc hd
    omega
  · rename_i hlt
    have hfix : Fixed { s with reqTail := s.readTail.length } :=
      ⟨hf.1, hf.2.1, hf.2.2.1, by simp [hf.2.2.1]⟩
    dsimp only
    split
    · exact recOut_completeRead ⟨hfix, nofun, hbd, hdn, fun h => absurd hv h⟩ hv hsw
        (fun _ => ⟨hl, by simpa using hj, hwl, hsz,
          fun _ => .inr (.inr (lt_of_lt_of_le (by decide) hf.2.1.2.1)), nofun⟩) rfl hw hsv hrc hd
    · have hop : Open s := hopen.resolve_right (by omega)
      refine recOut_of_inv (recInv_mk ⟨hfix, fun _ => ⟨by simp [hf.2.2.1], rfl, by dsimp only; omega,
        by dsimp only; omega, hop.2.2, .inl (by simp [hrr]), rfl⟩, hbd, hdn, fun h => absurd hv h⟩ hv
        (fun h => by simp [hsw] at h) fun _ _ => ⟨fun _ => hop, fun h => by simp [hk] at h,
          fun _ => hsz, fun _ => ⟨hl, hj, rfl, hwl, .inl hop, fun _ => ⟨hop, by dsimp only; omega⟩⟩⟩)
        hd

/-- `HandleWriteDone` advances by the bytes written: the final partial block goes to
`HandleReadDone`, otherwise the next read is asked for, everything received written. -/
theorem recOut_handleWriteDone {n : Int} (hb : RecBase cfg s) (hv : s.versStarts = 0)
    (hwr : Storing cfg s) (hr : s.readInFlight = false) (hw : s.waiting = false)
    (hk : s.state = .kNone) (hsv : s.skipVerify = false) (hd : s.dead = none)
    (hn : 0 ≤ st → n = s.wrNumBytes) : RecOut cfg (s.handleWriteDone env oc st n) := by
  have hdn := done_of_recBase hb hv
  unfold Rep.handleWriteDone
  dsimp only
  split
  · exact recOut_terminate (recBase_idle hb.1 hr hb.2.2.1 hdn hv) hd
  · rename_i hok
    have hcf : s.cancelFlag = false := by simpa using (not_or.mp hok).1
    obtain rfl := hn (not_lt.mp (not_or.mp hok).2)
    obtain ⟨hl, hj, hwl, hsz, h4, h5⟩ := hwr
    split
    · rename_i hrd
      obtain ⟨hro, hwb, hcb, hnb, hend⟩ := h5 hrd.2
      exact recOut_handleReadDone (recBase_idle hb.1 hr hb.2.2.1 hdn hv) hv
        ⟨hl, hj, hwl, hsz, fun h => absurd h hrd.2, fun _ =>
          ⟨hwb, hro ▸ hcb, hnb, .inl (by dsimp only; omega)⟩⟩ hcf hsv hr hk hw hd
    · rename_i hrd
      have h0 : s.rdBuf = [] := by
        by_contra hne
        exact hrd ⟨(h5 hne).1, hne⟩
      exact recOut_read (recBase_idle hb.1 hr hb.2.2.1 hdn hv) hv hr hw rfl hd fun _ =>
        ⟨⟨hl, by simpa [h0] using hj, h0, hwl, h4 h0, fun h => Bool.noConfusion (h.symm.trans hr)⟩,
          hsz⟩

/-! ## Cancel -/

/-- Detaching the reader drops what it owes. -/
theorem recInv_detach (h : RecInv cfg s) :
    RecInv cfg { s with readerRegistered := false, readerReads := 0, readerClose := false } := by
  obtain ⟨⟨hf, hin, hrest⟩, h2⟩ := h
  refine ⟨⟨hf, fun hr => ?_, hrest⟩, h2⟩
  obtain ⟨a, b, c, d, e, -, g⟩ := hin hr
  exact ⟨a, b, c, d, e, .inr ⟨rfl, rfl⟩, g⟩

/-- A layout stays open once no close is pending. -/
theorem open_closeDone (h : Open s) : Open { s with pendingClose := false } :=
  ⟨h.1, h.2.1, rfl⟩

/-- Dropping a pending close keeps the invariant. -/
theorem recInv_closeDone (h : RecInv cfg s) : RecInv cfg { s with pendingClose := false } := by
  obtain ⟨⟨hf, hin, hrest⟩, hvers, hst⟩ := h
  refine ⟨⟨hf, fun hr => ?_, hrest⟩, hvers, fun ho hv => ⟨fun hsw => ?_, fun hpc => ?_⟩⟩
  · obtain ⟨a, b, c, d, -, f⟩ := hin hr
    exact ⟨a, b, c, d, rfl, f⟩
  · obtain ⟨a, b, c, d, e, f⟩ := (hst ho hv).1 hsw
    exact ⟨a, b, c, d, fun h0 => (e h0).imp open_closeDone id, f⟩
  · obtain ⟨a, b, c, d⟩ := (hst ho hv).2 hpc
    refine ⟨fun h => open_closeDone (a h), b, c, fun h => ?_⟩
    obtain ⟨w1, w2, w3, w4, w5, w6⟩ := d h
    exact ⟨w1, w2, w3, w4, w5.imp open_closeDone id, fun hr => (w6 hr).imp_left open_closeDone⟩

/-- `HandleCancel`: detach the reader and, once the queue is drained, cancel; whatever it
fails terminates as cancelled. -/
theorem recOut_handleCancel (h : RecInv cfg s) (hd : s.dead = none) :
    RecOut cfg (s.handleCancel env oc) := by
  have hdt := recInv_detach h
  unfold Rep.handleCancel
  dsimp only
  by_cases h1 : env.shutdownUnref = true ∧ s.pendingClose = true
  · rw [if_pos h1]; exact recOut_of_inv (recInv_closeDone hdt) hd
  rw [if_neg h1]
  by_cases h2 : s.queued = true
  · rw [if_pos h2]; exact recOut_of_inv hdt hd
  rw [if_neg h2]
  by_cases hw : s.waiting = true
  · rw [if_pos (.inl hw)]
    unfold Rep.cancelBase
    dsimp only
    rw [if_pos hw]
    exact recOut_terminate hdt.1 hd
  · rw [cancelBase_of_waiting_false
      (s := { s with readerRegistered := false, readerReads := 0, readerClose := false })
      (by simpa using hw)]
    dsimp only
    split
    · exact recOut_of_inv hdt hd
    · split
      · unfold Rep.handleReadDone
        rw [if_pos rfl]
        exact recOut_terminate ⟨hdt.1.1, nofun, hdt.1.2.2⟩ hd
      · unfold Rep.handleStartDone
        rw [if_pos rfl]
        exact recOut_terminate hdt.1 hd

/-- `RSReplicatorImpl::Cancel` posts the cancel once; a pending cancel owes no stage. -/
theorem recOut_cancel (h : RecInv cfg s) (hd : s.dead = none) : RecOut cfg (s.cancel env) := by
  unfold Rep.cancel
  dsimp only
  rw [if_pos h.1.1.1]
  unfold Rep.rsCancel
  split
  · exact recOut_of_inv h hd
  · unfold Rep.enqueue
    rw [if_pos rfl, if_neg (by simp)]
    unfold Rep.post
    split
    · exact recOut_of_inv ⟨h.1, h.2.1, fun ho hv => ⟨(h.2.2 ho hv).1, nofun⟩⟩ hd
    · exact recOut_of_inv ⟨h.1, h.2.1, fun ho hv => ⟨(h.2.2 ho hv).1, nofun⟩⟩ hd

/-! ## Posted handlers and the start -/

/-- The posted `Handle()`, queued or inline, unwinds a cancel or runs the transition its poster
claimed, on the stage the claim left. -/
theorem recOut_handlePosted (h : Disc s) (hi : RecInv cfg s) (hd : s.dead = none)
    (hp : s.posted = true) : RecOut cfg ({ s with queued := false, runNow := false }.handle env oc) := by
  obtain ⟨⟨hmo, hre, -, -⟩, hb⟩ := h
  have hrf := mode_recovery hmo hi.1.1.1
  unfold Rep.handle
  split
  · exact recOut_handleCancel hi hd
  · rename_i hpc
    have hpc : s.pendingCancel = false := by simpa using hpc
    obtain ⟨hq, hk⟩ := hb.2.2.2.2.2.2 hp hpc
    have ho : s.owner = true := by
      cases ho : s.owner
      · exact absurd ((hb.1 ho).2 (.inl hp)) hk
      · rfl
    have hcv : s.changeVers = false := hq.2.2.2.1
    have hv : s.versStarts = 0 := by
      by_contra hv
      simpa [hcv] using hi.2.1 ho hv
    have hcf : s.cancelFlag = false := by
      cases h : s.cancelFlag
      · rfl
      · simp [hrf.2.2.1 h] at hpc
    have hr : s.readInFlight = false := hq.2.2.2.2.1
    have hrr : s.readerReads = 0 := by
      by_contra h0
      simpa [hr] using hre.2.1 (Nat.pos_of_ne_zero h0)
    obtain ⟨hopen, hmd, hsz, hwr⟩ := (hi.2.2 ho hv).2 hpc
    have hc : Calm { s with queued := false, runNow := false } :=
      ⟨hq.2.2.2.2.1, hq.1, hq.2.2.1, ho, hpc, hcf, hrf.2.1, hd, hv⟩
    split
    · exact recOut_handleStart hi.1 hc (hmd ‹_›) (hopen (.inl ‹_›)) (hwr hq.2.2.1)
    · exact recOut_handleRead hi.1 hc hrr ‹_› (hsz ‹_›) (hwr hq.2.2.1)
    · exact absurd ‹_› hk

/-- `RSReplicatorImpl::Start` asks for `CHUNKSIZE` bytes: an invalid meta server location
completes the start at once, otherwise `kStart` is claimed on the open layout. -/
theorem recOut_rsStart (hb : RecBase cfg s) (hv : s.versStarts = 0) (hr : s.readInFlight = false)
    (hw : s.waiting = false) (hsw : s.storeWrite = false) (ho : s.owner = true)
    (hd : s.dead = none) (hrc : s.cancelFlag = true → s.pendingCancel = true)
    (hst : s.pendingCancel = false → Open s ∧ Written s) : RecOut cfg (s.rsStart oc env) := by
  have hdn := done_of_recBase hb hv
  have hnw : s.storeWrite = true → Storing cfg s := fun h => by simp [hsw] at h
  unfold Rep.rsStart
  split
  · rename_i hpc
    exact recOut_of_inv (recInv_mk hb hv hnw fun _ h => Bool.noConfusion (hpc.symm.trans h)) hd
  · rename_i hpc
    have hpc : s.pendingCancel = false := by simpa using hpc
    have hcf : s.cancelFlag = false := by
      cases h : s.cancelFlag
      · rfl
      · simp [hrc h] at hpc
    obtain ⟨hop, hwr⟩ := hst hpc
    dsimp only
    split
    · exact recOut_completeStart (recBase_idle hb.1 hr hb.2.2.1 hdn hv)
        ⟨hr, hw, hsw, ho, hpc, hcf, rfl, hd, hv⟩ rfl hop hwr
    · exact recOut_enqueue hd hpc (recInv_mk (recBase_idle hb.1 hr hb.2.2.1 hdn hv) hv
        (fun h => Bool.noConfusion (h.symm.trans hsw))
        fun _ _ => ⟨fun _ => hop, fun _ => rfl, nofun, fun _ => hwr⟩)

/-- The buffers arrive: `Granted` runs `Start` on the layout the wait kept open. -/
theorem recOut_granted (h : Disc s) (hi : RecInv cfg s) (hd : s.dead = none)
    (hwt : s.waiting = true) : RecOut cfg (s.granted cfg env) := by
  obtain ⟨⟨hmo, -, -, -⟩, hb⟩ := h
  have hrs := hi.1.1.1
  obtain ⟨hq, -⟩ := hb.2.1 hwt
  have ho := owner_of_busy hb fun q => by simp [q.1] at hwt
  have hcv : s.changeVers = false := hq.2.2.2.1
  have hv : s.versStarts = 0 := by
    by_contra hv
    simpa [hcv] using hi.2.1 ho hv
  unfold Rep.granted Rep.start
  dsimp only
  rw [if_pos hrs]
  exact recOut_rsStart hi.1 hv hq.2.2.2.2.1 rfl hq.2.2.1 ho hd (mode_recovery hmo hrs).2.2.1
    fun hpc => ⟨((hi.2.2 ho hv).2 hpc).1 (.inr hwt), ((hi.2.2 ho hv).2 hpc).2.2.2 hq.2.2.1⟩

/-- A replicator `Run` creates for an accepted recovery op: nothing read, nothing written. -/
theorem recInv_create {op : ReplicateChunkOp} {ct lv : Bool} {rsz : Int}
    (hlv : op.locationValid = false) (hv : rsValid op = true)
    (hrsz : CHECKSUM_BLOCKSIZE ∣ rsz ∧ CHECKSUM_BLOCKSIZE ≤ rsz) :
    Open (Rep.create op ct lv rsz) ∧ Written (Rep.create op ct lv rsz) ∧
      RecInv cfg (Rep.create op ct lv rsz) := by
  have hco : 0 ≤ op.chunkOffset := by
    simp only [rsValid, Bool.not_eq_true', decide_eq_false_iff_not, not_or, not_lt] at hv
    exact hv.1
  have hop : Open (Rep.create op ct lv rsz) := ⟨fun _ h => absurd h (List.not_mem_nil _), dvd_zero _, rfl⟩
  have hwr : Written (Rep.create op ct lv rsz) := ⟨Lays.nil 0, rfl, rfl, fun _ h => absurd h (List.not_mem_nil _), .inl hop, nofun⟩
  exact ⟨hop, hwr, recInv_mk (recBase_idle ⟨by simp [Rep.create, hlv], ⟨hrsz.1, hrsz.2, hco⟩, rfl, rfl⟩
    rfl (fun h => absurd rfl h) rfl rfl) rfl nofun fun _ _ => ⟨fun _ => hop, nofun, nofun, fun _ => hwr⟩⟩

/-- `ReplicatorImpl::Run` of a new recovery: over quota it terminates, otherwise it starts at
once or waits, on an open layout. -/
theorem recOut_run_create {op : ReplicateChunkOp} {ct lv : Bool} {rsz : Int}
    (hlv : op.locationValid = false) (hv : rsValid op = true)
    (hrsz : CHECKSUM_BLOCKSIZE ∣ rsz ∧ CHECKSUM_BLOCKSIZE ≤ rsz) :
    RecOut cfg ((Rep.create op ct lv rsz).run cfg env) := by
  obtain ⟨hop, hwr, hi⟩ := @recInv_create cfg op ct lv rsz hlv hv hrsz
  have hrs : (Rep.create op ct lv rsz).rs = true := hi.1.1.1
  unfold Rep.run
  dsimp only
  split
  · exact recOut_terminate hi.1 rfl
  · split
    · unfold Rep.start
      dsimp only
      rw [if_pos hrs]
      exact recOut_rsStart hi.1 rfl rfl rfl rfl rfl rfl nofun fun _ => ⟨hop, hwr⟩
    · exact recOut_of_inv (recInv_mk hi.1 rfl nofun fun _ _ =>
        ⟨fun _ => hop, nofun, nofun, fun _ => hwr⟩) rfl

/-! ## The reader's `Done` -/

/-- The read in flight is answered: the reader owes nothing for it any more. -/
theorem recInv_land (h : RecInv cfg s) (n : Nat) :
    RecInv cfg { s with readerReads := n, readInFlight := false } := by
  obtain ⟨⟨hf, -, hrest⟩, hvers, hst⟩ := h
  refine ⟨⟨hf, nofun, hrest⟩, hvers, fun ho hv => ⟨(hst ho hv).1, fun hpc => ?_⟩⟩
  obtain ⟨a, b, c, d⟩ := (hst ho hv).2 hpc
  refine ⟨a, b, c, fun hsw => ?_⟩
  obtain ⟨w1, w2, w3, w4, w5, -⟩ := d hsw
  exact ⟨w1, w2, w3, w4, w5, nofun⟩

/-- The end of `Done`: past the size check and at the position asked for, the read completes,
with the invalid-stripe report of a failed read. -/
theorem recOut_doneFinish {status inOffset ps : Int} {buf : Option (List UInt8)} {readOk : Bool}
    (hin : s.op.chunkOffset + s.offset = inOffset)
    (hb : ¬(readOk = true ∧ cfg.maxRecoverChunkSize < s.offset + ps) → RecBase cfg s)
    (hv : s.versStarts = 0) (hsw : s.storeWrite = false) (hr : s.readInFlight = false)
    (hw : s.waiting = false) (hsv : s.skipVerify = false)
    (hrc : s.cancelFlag = true → s.pendingCancel = true) (hd : s.dead = none)
    (ha : ¬(readOk = true ∧ cfg.maxRecoverChunkSize < s.offset + ps) →
      s.pendingCancel = false → Arrived cfg s) :
    RecOut cfg (s.doneFinish cfg env oc status inOffset buf readOk ps) := by
  unfold Rep.doneFinish
  split
  · exact recOut_die (ne_of_lead " recovery: file: "
      (by simp only [String.data_append, List.append_assoc]; exact List.prefix_append _ _)
      (by decide))
  · rename_i hchk
    split
    · rename_i ho
      exact recOut_of_inv (recInv_mk (hb hchk) hv (fun h => by simp [hsw] at h)
        fun h => by simp [h] at ho) hd
    · rw [if_neg (not_not.mpr hin)]
      split
      · split
        · split
          · next msg hsr =>
            rcases Rep.stripeReport_error hsr with h | h | h | h
            · exact recOut_die (by rw [h]; decide)
            · exact recOut_die (by rw [h]; decide)
            · exact recOut_die (by rw [h]; decide)
            · exact recOut_die (ne_of_lead _ h (by decide))
          · exact recOut_completeRead (hb hchk) hv hsw (ha hchk) hr hw hsv hrc hd
        · exact recOut_completeRead (hb hchk) hv hsw (ha hchk) hr hw hsv hrc hd
      · exact recOut_completeRead (hb hchk) hv hsw (ha hchk) hr hw hsv hrc hd

/-- A successful buffer. A short one, or one that reaches the chunk's end, is the last data
and fixes the chunk size; any other is a full `mReadSize`, so whole blocks, as `GetReadSize`
reads whole blocks, and nothing is carried in `mReadTail`. -/
theorem recOut_doneRead {inOffset : Int} {b : List UInt8}
    (hf : Fixed s) (hin : s.op.chunkOffset + s.offset = inOffset)
    (hrcv : (s.received.length : Int) = s.offset + b.length) (hb0 : (b.length : Int) ≤ s.readSize)
    (hr : s.readInFlight = false) (hdn : s.done = false) (hv : s.versStarts = 0)
    (hsw : s.storeWrite = false) (hw : s.waiting = false) (hsv : s.skipVerify = false)
    (hrc : s.cancelFlag = true → s.pendingCancel = true) (hd : s.dead = none)
    (hpcl : s.pendingClose = false)
    (hwr : s.pendingCancel = false → Lays 0 s.writes s.offset ∧
      (s.writes.map WriteCall.data).flatten ++ b = s.received ∧ WholeBlocks s.writes.dropLast ∧
      Open s ∧ Sized cfg s) :
    RecOut cfg (s.doneRead cfg env oc inOffset b) := by
  have hcb : (0 : Int) < CHECKSUM_BLOCKSIZE := by decide
  have hbound (hchk : ¬(true = true ∧ cfg.maxRecoverChunkSize < s.offset + b.length)) :
      s.received ≠ [] → (s.received.length : Int) ≤ cfg.maxRecoverChunkSize := fun _ => by
    have := not_and.mp hchk rfl
    omega
  unfold Rep.doneRead
  simp only [hf.2.2.1, List.nil_append, List.length_nil, Nat.cast_zero, zero_add, add_zero]
  split
  · unfold Rep.doneChecksums
    split <;> refine recOut_doneFinish hin (fun hchk => ⟨⟨hf.1, hf.2.1, rfl, hf.2.2.2⟩,
      inFlight_of_idle hr, hbound hchk, fun h => absurd h (by simp [hdn]), fun h => absurd hv h⟩)
      hv hsw hr hw hsv hrc hd fun hchk hpc => ?_ <;>
    · obtain ⟨hl, hj, hwl, hop, -⟩ := hwr hpc
      have := not_and.mp hchk rfl
      dsimp only at this
      refine ⟨hl, hj, hwl, .inr (by dsimp only; omega), fun h0 => .inl ?_,
        fun _ => ⟨hop.1, hop.2.1, rfl, .inl rfl⟩⟩
      dsimp only at h0 ⊢
      simp [h0]
  · rename_i hmid
    have hlen : (b.length : Int) = s.readSize := by omega
    have hdvd : CHECKSUM_BLOCKSIZE ∣ (b.length : Int) := hlen ▸ hf.2.1.1
    have hnmv : (b.length : Int) / CHECKSUM_BLOCKSIZE * CHECKSUM_BLOCKSIZE = b.length :=
      Int.ediv_mul_cancel hdvd
    simp only [hnmv, Int.toNat_ofNat, List.take_length, List.drop_length]
    rw [if_neg (by have := hf.2.1.2.1; omega)]
    unfold Rep.doneChecksums
    split <;> refine recOut_doneFinish hin (fun hchk => ⟨⟨hf.1, hf.2.1, rfl, hf.2.2.2⟩,
      inFlight_of_idle hr, hbound hchk, fun h => absurd h (by simp [hdn]), fun h => absurd hv h⟩)
      hv hsw hr hw hsv hrc hd fun _ hpc => ?_ <;>
    · obtain ⟨hl, hj, hwl, hop, hsz⟩ := hwr hpc
      have := hf.2.1.2.1
      exact ⟨hl, hj, hwl, hsz, fun _ => .inr (.inr (by dsimp only; omega)),
        fun _ => ⟨hop.1, hop.2.1, rfl, .inr ⟨hdvd, by dsimp only; omega, hpcl⟩⟩⟩

/-- The reader's `Done` for the read in flight: it answers at the position and within the size
asked for, so the checks pass; a successful buffer is received and completes the read. -/
theorem recOut_readerDone {st off sz : Int} {buf : Option (List UInt8)} (h : Disc s)
    (hi : RecInv cfg s) (hd : s.dead = none) (he : 0 < s.readerReads)
    (hok : RecoveryOk s (.readerDone st off sz buf)) :
    RecOut cfg
      ({ s with readerReads := s.readerReads - 1 }.completionDone cfg env true st off sz buf) := by
  obtain ⟨⟨hmo, hre, -, -⟩, hb⟩ := h
  have hrf := mode_recovery hmo hi.1.1.1
  have hr : s.readInFlight = true := hre.2.1 he
  obtain ⟨hq, hk⟩ := hb.2.2.2.2.2.1 hr
  have ho := owner_of_busy hb fun q => by simp [q.2.2.2.2.1] at hr
  have hcv : s.changeVers = false := hq.2.2.2.1
  have hv : s.versStarts = 0 := by
    by_contra hv
    simpa [hcv] using hi.2.1 ho hv
  have hsw : s.storeWrite = false := hq.2.2.1
  have hw : s.waiting = false := hq.1
  have hdn := done_of_recBase hi.1 hv
  have hco := hi.1.1.2.1.2.2
  obtain ⟨hro, hnb, hoff, hrcv, hpcl, -⟩ := hi.1.2.1 hr
  have hpos : 0 < s.readSize := lt_of_lt_of_le (by decide) hi.1.1.2.1.2.1
  have hat : off = s.op.chunkOffset + s.offset ∧ sz ≤ s.readSize := by
    cases buf
    · exact ⟨hro ▸ hok.1, hok.2⟩
    · exact ⟨hro ▸ hok.1, hok.2.1⟩
  -- with the reads of `Stage`, what a completion finds when no cancel is pending
  have hstage (hpc : s.pendingCancel = false) :
      Written s ∧ Sized cfg s := ⟨((hi.2.2 ho hv).2 hpc).2.2.2 hsw, ((hi.2.2 ho hv).2 hpc).2.2.1 hk⟩
  have hfail : RecOut cfg ({ s with
      readerReads := s.readerReads - 1, readInFlight := false, rdChecksum := [], rdStatus := st
    }.doneFinish cfg env true st off buf false 0) := by
    refine recOut_doneFinish hat.1.symm (fun _ => ⟨hi.1.1, inFlight_of_idle rfl, hi.1.2.2⟩) hv hsw
      rfl hw hrf.2.1
      hrf.2.2.1 hd fun _ hpc => ?_
    obtain ⟨⟨w1, w2, w3, w4, -, -⟩, hsz⟩ := hstage hpc
    exact ⟨w1, by rw [w3, List.append_nil]; exact w2, w4, hsz,
      fun _ => .inr (.inr (by dsimp only; omega)), fun h => absurd w3 h⟩
  have hchk : ¬(buf.isSome = true ∧ (off < 0 ∨ sz > s.rdNumBytes ∨ s.readInFlight = false)) := by
    rintro ⟨-, hc | hc | hc⟩
    · omega
    · omega
    · simp [hr] at hc
  unfold Rep.completionDone
  rw [if_neg hchk, if_neg (by simp [hpcl]), if_neg (by simp [hr])]
  dsimp only
  split
  · exact recOut_of_inv (recInv_land hi _) hd
  · cases buf with
    | none => exact hfail
    | some b =>
      dsimp only
      split
      · rename_i hst
        refine recOut_doneRead hi.1.1 hat.1.symm
          (by simp only [List.length_append, Nat.cast_add]; omega) (hok.2.2 hst) rfl hdn hv hsw hw
          hrf.2.1 hrf.2.2.1 hd hpcl fun hpc => ?_
        obtain ⟨⟨w1, w2, -, w4, -, w6⟩, hsz⟩ := hstage hpc
        exact ⟨w1, by rw [w2], w4, (w6 hr).1, hsz⟩
      · exact hfail

/-- A reader completion with no read in flight only settles the close or records a failure. -/
theorem recOut_readerIdle {st off sz : Int} (hi : RecInv cfg s) (hr : s.readInFlight = false)
    (hd : s.dead = none) : RecOut cfg (s.completionDone cfg env oc st off sz none) := by
  unfold Rep.completionDone
  rw [if_neg (by simp)]
  split
  · split
    · exact recOut_of_inv hi hd
    · exact recOut_of_inv (recInv_closeDone hi) hd
  · rw [if_pos (by simp [hr])]
    split
    · exact recOut_of_inv ⟨⟨hi.1.1, inFlight_of_idle hr, hi.1.2.2⟩, hi.2⟩ hd
    · exact recOut_of_inv hi hd

/-! ## Every step, every run -/

/-- Every step of a recovery keeps the invariant, along completions `RecoveryOk` admits, and
never reaches `Done`'s "invalid read completion". -/
theorem recOut_step {e : Event} {s' : Rep} (h : Disc s) (hi : RecInv cfg s)
    (hok : RecoveryOk s e) (hs : step cfg env e s = some s') : RecOut cfg s' := by
  obtain ⟨hd, he, rfl⟩ := step_eq_some hs
  obtain ⟨⟨hmo, hre, -, -⟩, hb⟩ := id h
  have hrf := mode_recovery hmo hi.1.1.1
  cases e with
  | handleInline =>
    have he : s.runNow = true := he
    show RecOut cfg ({ s with runNow := false }.handle env true)
    rw [unpost_of_inline (hrf.2.2.2.2 he)]
    exact recOut_handlePosted h hi hd (by simp [Rep.posted, he])
  | handleQueued =>
    simp only [Event.enabled, Bool.and_eq_true, Bool.not_eq_true'] at he
    show RecOut cfg ({ s with queued := false }.handle env true)
    rw [unpost_of_queued he.1]
    exact recOut_handlePosted h hi hd (by simp [Rep.posted, he.2])
  | granted =>
    simp only [Event.enabled, Bool.and_eq_true, Bool.not_eq_true'] at he
    exact recOut_granted h hi hd he.2
  | metadataDone =>
    simp only [Event.enabled, Bool.and_eq_true, beq_iff_eq] at he
    simp [hrf.1] at he
  | readDone =>
    simp only [Event.enabled, Bool.and_eq_true, beq_iff_eq] at he
    simp [hrf.1] at he
  | writeDone st n oc =>
    simp only [Event.enabled, Bool.and_eq_true] at he
    obtain ⟨hq, hk⟩ := hb.2.2.2.1 he.2
    have ho := owner_of_busy hb fun q => by simp [q.2.2.1] at he
    have hcv : s.changeVers = false := hq.2.2.2.1
    have hv : s.versStarts = 0 := by
      by_contra hv
      simpa [hcv] using hi.2.1 ho hv
    exact recOut_handleWriteDone hi.1 hv ((hi.2.2 ho hv).1 he.2) hq.2.2.2.2.1 hq.1 hk hrf.2.1 hd
      hok
  | changeVersDone => exact recOut_of_inv (recInv_handleReplicationDone hi.1) hd
  | cancel => exact recOut_cancel hi hd
  | readerDone =>
    simp only [Event.enabled, Bool.and_eq_true, decide_eq_true_eq] at he
    exact recOut_readerDone h hi hd he.2 hok
  | closeDone =>
    simp only [Event.enabled, Bool.and_eq_true] at he
    have hr : s.readInFlight = false := by
      cases hr : s.readInFlight
      · rfl
      · obtain ⟨-, -, -, -, hpcl, hrr⟩ := hi.1.2.1 hr
        have := (hre.2.2 he.2 hpcl).1
        rcases hrr with h1 | ⟨-, h2⟩
        · omega
        · simp [he.2] at h2
    exact recOut_readerIdle ⟨⟨hi.1.1, inFlight_of_idle hr, hi.1.2.2⟩, hi.2⟩ hr hd
  | readerNote =>
    simp only [Event.enabled, Bool.and_eq_true, beq_iff_eq, Bool.not_eq_true'] at he
    have hr : s.readInFlight = false := by
      cases hr : s.readInFlight
      · rfl
      · obtain ⟨-, -, -, -, -, hrr⟩ := hi.1.2.1 hr
        rcases hrr with h1 | ⟨h2, -⟩
        · omega
        · simp [he.1.1.2] at h2
    exact recOut_readerIdle hi hr hd

/-- Along every run of a recovery `Replicator::Run` accepted, with `sRSReaderMaxReadSize` a
multiple of the block size as `SetParameters` makes it and `GetReadSize` asserts, and along
completions `RecoveryOk` admits, every reachable state satisfies `RecOut`. -/
theorem recOut_reachable {maxReadSize quota ioBufferSize : Int}
    (hm : CHECKSUM_BLOCKSIZE ∣ maxReadSize)
    (h : Reachable cfg (RecoveryInit maxReadSize quota ioBufferSize) RecoveryOk s) :
    RecOut cfg s := by
  induction h with
  | run env h0 =>
    obtain ⟨op, ct, lv, hlv, hv, rfl⟩ := h0
    exact recOut_run_create hlv hv (getReadSize_blocks hv hm)
  | step hr hok hs ih =>
    exact recOut_step (disc_reachable_of_fresh (fun ⟨op, ct, lv, _, _, h⟩ => ⟨op, ct, lv, _, h⟩) hr)
      (ih.2 (step_eq_some hs).1) hok hs

end

/-- Recovery neither loses nor duplicates bytes: `Done` never reaches "invalid read
completion"; `mReadTail` stays empty, so each `Read` asks for `mOffset`, the position `Done`
checks; and once `ChangeChunkVers` has been started, the writes lay out, from 0, exactly the
bytes the reader delivered, whose count is the chunk size and within
`sRSReaderMaxRecoverChunkSize`. -/
theorem rs_recovery_exact {cfg : Cfg} {maxReadSize quota ioBufferSize : Int} {s : Rep}
    (hm : CHECKSUM_BLOCKSIZE ∣ maxReadSize)
    (h : Reachable cfg (RecoveryInit maxReadSize quota ioBufferSize) RecoveryOk s) :
    s.dead ≠ some "recovery: invalid read completion" ∧
      (s.dead = none → s.readTail = [] ∧ s.reqTail = 0 ∧
        (s.readInFlight = true → s.reqOffset = s.offset) ∧
        (s.versStarts ≠ 0 → ExactRecovery s.received s.writes ∧
          s.chunkSize = s.received.length ∧
          (s.received.length : Int) ≤ cfg.maxRecoverChunkSize)) := by
  obtain ⟨hdie, hinv⟩ := recOut_reachable hm h
  refine ⟨hdie, fun hd => ?_⟩
  obtain ⟨⟨⟨-, -, htl, hrt⟩, hin, -, -, hfin⟩, -⟩ := hinv hd
  exact ⟨htl, hrt, fun hr => (hin hr).1, hfin⟩

/-- A recovery of a 3-byte chunk: the reader returns the 3 bytes as a short buffer, which
ends the chunk; they are written at offset 0 and, once the store reports them, the chunk is
finalized with exactly those bytes. -/
theorem rs_recovery_exact_three_bytes :
    let cfg : Cfg := ⟨false, CHUNKSIZE, false, fun _ => []⟩
    let op : ReplicateChunkOp := ⟨1, 2, 1, 2, false, 20000, 0, 2, 6, 3, 65536, 1, []⟩
    let s0 := (Rep.create op true true
      (getReadSize kDefaultReplicationReadSize 67108864 4096 op)).run cfg Env.ok
    let s1 := Event.handleInline.apply cfg Env.ok (Event.handleQueued.apply cfg Env.ok s0)
    let s := Event.handleQueued.apply cfg Env.ok ((Event.writeDone 0 3 false).apply cfg Env.ok
      ((Event.readerDone 0 0 3 (some [1, 2, 3])).apply cfg Env.ok s1))
    CHECKSUM_BLOCKSIZE ∣ kDefaultReplicationReadSize ∧
      Reachable cfg (RecoveryInit kDefaultReplicationReadSize 67108864 4096) RecoveryOk s ∧
      s.dead = none ∧ s.versStarts = 1 ∧ s.received = [1, 2, 3] ∧
      ExactRecovery s.received s.writes ∧ s.chunkSize = 3 := by
  have hm : CHECKSUM_BLOCKSIZE ∣ kDefaultReplicationReadSize := ⟨16, by decide⟩
  refine ⟨hm, ?_⟩
  refine (fun (h : Reachable _ _ _ _) => ⟨h, ?_⟩) ?_
  · have h0 := @Reachable.run ⟨false, CHUNKSIZE, false, fun _ => []⟩
      (RecoveryInit kDefaultReplicationReadSize 67108864 4096) RecoveryOk _ Env.ok
      ⟨⟨1, 2, 1, 2, false, 20000, 0, 2, 6, 3, 65536, 1, []⟩, true, true, rfl, rfl, rfl⟩
    have h1 := @Reachable.step _ _ _ _ _ Env.ok .handleQueued h0 trivial rfl
    have h2 := @Reachable.step _ _ _ _ _ Env.ok .handleInline h1 trivial rfl
    have h3 := @Reachable.step _ _ _ _ _ Env.ok (.readerDone 0 0 3 (some [1, 2, 3])) h2
      (by decide) rfl
    have h4 := @Reachable.step _ _ _ _ _ Env.ok (.writeDone 0 3 false) h3 (by decide) rfl
    exact @Reachable.step _ _ _ _ _ Env.ok .handleQueued h4 trivial rfl
  · obtain ⟨hx, hc, -⟩ := ((rs_recovery_exact hm h).2 rfl).2.2.2 (by decide)
    exact ⟨rfl, rfl, rfl, hx, hc⟩

end QfsReplicator
