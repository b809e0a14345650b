import QfsReplicator.Direct.Copy
import QfsReplicator.Lifecycle.Settle

/-! # A direct replicator never stalls, and dies only without a file handle

Every handler of `ReplicatorImpl` ends by handing the replicator on: it asks the peer for the
size or for the next read, submits a write, waits for buffers, starts `ChangeChunkVers`, or
answers the op in `Terminate`; or it stops the process (`die`). A `Cancel()` with nothing
outstanding but the buffer wait terminates at once, and otherwise leaves the outstanding
operation to finish. So a direct replicator that still owns its op and has not stopped the
process waits on something at every point of every run, whatever its peer, the store and the
buffer manager do, and by the handoff discipline on exactly one thing (`direct_never_stalls`).

Of the `die`s of `ReplicatorImpl`, `Run`'s restart check belongs to the registry (see the
registry modules), `HandleStartDone` dies when a successful `AllocChunk` leaves no file handle,
and `HandleReadDone` when a successful read's checksums do not match its data. Against a peer
that serves the chunk and a store that writes whole requests the completion check always
passes, so a direct replicator stops the process only at the null file handle
(`direct_never_dies`).
-/

namespace QfsReplicator

/-- The replicator waits on buffers, the peer, the store or `ChangeChunkVers`. -/
def Waiting (s : Rep) : Prop :=
  s.waiting = true ∨ s.peerOp ≠ none ∨ s.storeWrite = true ∨ s.changeVers = true

/-- The replicator has answered its op, stopped the process, or waits on something. -/
def Live (s : Rep) : Prop := s.owner = false ∨ s.dead ≠ none ∨ Waiting s

/-- `t` is a replicator of the kind of `s`, and `Live`. -/
def Pending (t s : Rep) : Prop := t.rs = s.rs ∧ Live t

theorem outstanding_pos {s : Rep} (h : Waiting s) : 0 < outstanding s := by
  unfold outstanding
  rcases h with h | h | h | h
  · simp only [h, Bool.toNat_true]; omega
  · simp only [Option.isSome_iff_ne_none.mpr h, Bool.toNat_true]; omega
  · simp only [h, Bool.toNat_true]; omega
  · simp only [h, Bool.toNat_true]; omega

section

variable {s : Rep} {env : Env} {oc : Bool} {st : Int}

/-! ## Each handler hands the replicator on -/

theorem pending_handleReplicationDone : Pending (s.handleReplicationDone st) s := ⟨rfl, .inl rfl⟩

theorem pending_die {m : String} : Pending (s.die m) s :=
  ⟨rfl, .inr (.inl (Option.some_ne_none _))⟩

/-- `Terminate` answers the op or leaves `ChangeChunkVers` outstanding. -/
theorem pending_terminate : Pending (s.terminate env st) s := by
  unfold Rep.terminate
  split
  · dsimp only
    split
    · exact ⟨rfl, .inr (.inr (.inr (.inr (.inr rfl))))⟩
    · exact pending_handleReplicationDone
  · exact pending_handleReplicationDone

theorem pending_directRead : Pending (s.directRead env) s := by
  unfold Rep.directRead
  split
  · exact pending_terminate
  · exact ⟨rfl, .inr (.inr (.inr (.inl (Option.some_ne_none _))))⟩

theorem pending_read (hrs : s.rs = false) : Pending (s.read env oc) s := by
  rw [Rep.read_of_direct hrs]
  exact pending_directRead

theorem pending_directStart {cfg : Cfg} : Pending (s.directStart cfg) s :=
  ⟨rfl, .inr (.inr (.inr (.inl (Option.some_ne_none _))))⟩

theorem pending_start {cfg : Cfg} (hrs : s.rs = false) : Pending (s.start cfg env oc) s := by
  rw [Rep.start_of_direct hrs]
  exact pending_directStart

theorem pending_writeChunk : Pending (s.writeChunk env) s := by
  unfold Rep.writeChunk
  dsimp only
  split
  · exact pending_terminate
  · exact ⟨rfl, .inr (.inr (.inr (.inr (.inl rfl))))⟩

theorem pending_alignWrite : Pending (s.alignWrite.writeChunk env) s := by
  unfold Rep.alignWrite
  dsimp only
  split
  · split <;> exact pending_writeChunk
  · exact pending_writeChunk

theorem pending_readDoneFinish : Pending (s.readDoneFinish env) s := by
  unfold Rep.readDoneFinish
  dsimp only
  split
  · exact pending_terminate
  · split
    · exact pending_die
    · exact pending_alignWrite

theorem pending_handleReadDone (hrs : s.rs = false) : Pending (s.handleReadDone env oc) s := by
  unfold Rep.handleReadDone
  split
  · exact pending_terminate
  · dsimp only
    split
    · split
      · exact pending_read hrs
      · exact pending_readDoneFinish
    · split <;> exact pending_readDoneFinish

theorem pending_handleWriteDone {n : Int} (hrs : s.rs = false) :
    Pending (s.handleWriteDone env oc st n) s := by
  unfold Rep.handleWriteDone
  dsimp only
  split
  · exact pending_terminate
  · split
    · exact pending_handleReadDone hrs
    · exact pending_read hrs

theorem pending_handleStartDone (hrs : s.rs = false) : Pending (s.handleStartDone env oc) s := by
  unfold Rep.handleStartDone
  split
  · exact pending_terminate
  · dsimp only
    split
    · exact pending_terminate
    · split
      · exact pending_terminate
      · split
        · exact pending_die
        · exact pending_read hrs

/-- `Cancel()` terminates a replicator waiting for buffers, and otherwise leaves what is
outstanding to finish. -/
theorem pending_cancel (hrs : s.rs = false) (hl : Live s) : Pending (s.cancel env) s := by
  rw [Rep.cancel_of_direct hrs]
  unfold Rep.cancelBase
  dsimp only
  split
  · exact pending_terminate
  · exact ⟨rfl, hl⟩

theorem pending_run {cfg : Cfg} (hrs : s.rs = false) : Pending (s.run cfg env) s := by
  unfold Rep.run
  dsimp only
  split
  · exact pending_terminate
  · split
    · exact pending_start hrs
    · exact ⟨rfl, .inr (.inr (.inl rfl))⟩

/-- A step of a direct replicator under the handoff discipline keeps it direct and `Live`: the
events it can see are the completions of what it waits on and `Cancel()`. -/
theorem pending_step {cfg : Cfg} {e : Event} {s' : Rep} (h : Disc s) (hrs : s.rs = false)
    (hl : Live s) (hs : step cfg env e s = some s') : Pending s' s := by
  obtain ⟨-, he, rfl⟩ := step_eq_some hs
  obtain ⟨-, -, -, hq, hrn, hrr, hreg, hrc⟩ := mode_direct h.1.1 hrs
  cases e with
  | handleInline => simp [Event.enabled, hrn] at he
  | handleQueued => simp [Event.enabled, hq] at he
  | granted => exact pending_start hrs
  | metadataDone => exact pending_handleStartDone hrs
  | readDone => exact pending_handleReadDone hrs
  | writeDone => exact pending_handleWriteDone hrs
  | changeVersDone => exact pending_handleReplicationDone
  | cancel => exact pending_cancel hrs hl
  | readerDone => simp [Event.enabled, hrr] at he
  | closeDone => simp [Event.enabled, hrc] at he
  | readerNote => simp [Event.enabled, hreg] at he

end

/-! ## Over whole runs -/

section

variable {cfg : Cfg} {Ok : Rep → Event → Prop} {s : Rep}

theorem disc_of_direct (h : Reachable cfg DirectInit Ok s) : Disc s :=
  disc_reachable_of_fresh (fun ⟨op, ct, lv, rsz, _, he⟩ => ⟨op, ct, lv, rsz, he⟩) h

theorem live_reachable (h : Reachable cfg DirectInit Ok s) : s.rs = false ∧ Live s := by
  induction h with
  | run env h0 =>
    obtain ⟨op, ct, lv, rsz, hl, rfl⟩ := h0
    have hrs : (Rep.create op ct lv rsz).rs = false := by simp [Rep.create, hl]
    obtain ⟨he, hlive⟩ := (pending_run hrs : Pending ((Rep.create op ct lv rsz).run cfg env) _)
    exact ⟨he.trans hrs, hlive⟩
  | step hr _ hs ih =>
    obtain ⟨he, hlive⟩ := pending_step (disc_of_direct hr) ih.1 ih.2 hs
    exact ⟨he.trans ih.1, hlive⟩

/-- Whatever its peer, the store and the buffer manager do, a direct replicator that still owns
its op and has not stopped the process waits on exactly one thing: buffers, the peer, the store
or `ChangeChunkVers`. -/
theorem direct_never_stalls (h : Reachable cfg DirectInit Ok s) (ho : s.owner = true)
    (hd : s.dead = none) : outstanding s = 1 := by
  have hw : Waiting s := by
    rcases (live_reachable h).2 with ho' | hd' | hw
    · exact absurd (ho.symm.trans ho') (by decide)
    · exact absurd hd hd'
    · exact hw
  have hle := outstanding_le_one (disc_of_direct h)
  have hpos := outstanding_pos hw
  omega

/-- A direct replicator that has asked its peer for the chunk's size waits on that reply
alone. -/
theorem direct_never_stalls_sizing :
    let cfg : Cfg := ⟨false, 0, false, fun _ => []⟩
    let op : ReplicateChunkOp := ⟨1, 2, 1, 2, true, 20000, 0, 0, 0, 0, 0, 0, []⟩
    let s := (Rep.create op false true 0).run cfg Env.ok
    Reachable cfg DirectInit (fun _ _ => True) s ∧ s.owner = true ∧ s.dead = none ∧
      outstanding s = 1 := by
  intro cfg op s
  have h0 : Reachable cfg DirectInit (fun _ _ => True) s :=
    .run Env.ok ⟨op, false, true, 0, rfl, rfl⟩
  exact ⟨h0, rfl, rfl, direct_never_stalls h0 rfl rfl⟩

end

/-! ## A direct replicator dies only without a file handle

A direct replicator reaches two `die`s: `HandleStartDone`'s, when a successful `AllocChunk`
leaves no file handle, and the completion check of `HandleReadDone`, for a read at an offset
off the checksum blocks or with a checksum count other than one per block. Every other handler
leaves `dead` alone, and against a peer that serves the chunk and a store that writes whole
requests the check always passes: `Read` asks for `mOffset` on a block, and a carried tail
starts where the whole blocks before it end. -/

/-- What the completion check of `HandleReadDone` asks of `mReadOp`. -/
def ReadChecks (s : Rep) : Prop :=
  s.offset % CHECKSUM_BLOCKSIZE = 0 ∧
    (s.rdChecksum = [] ∨ (s.rdChecksum.length : Int) = numBlocks s.rdBuf.length)

section

variable {s : Rep} {env : Env} {oc : Bool} {st : Int}

theorem dead_terminate : (s.terminate env st).dead = s.dead := by
  unfold Rep.terminate
  split
  · dsimp only
    split <;> rfl
  · rfl

theorem dead_directRead : (s.directRead env).dead = s.dead := by
  unfold Rep.directRead
  split
  · exact dead_terminate
  · rfl

theorem dead_read (hrs : s.rs = false) : (s.read env oc).dead = s.dead := by
  rw [Rep.read_of_direct hrs]
  exact dead_directRead

theorem dead_start {cfg : Cfg} (hrs : s.rs = false) : (s.start cfg env oc).dead = s.dead := by
  rw [Rep.start_of_direct hrs]
  rfl

theorem dead_writeChunk : (s.writeChunk env).dead = s.dead := by
  unfold Rep.writeChunk
  dsimp only
  split
  · exact dead_terminate
  · rfl

theorem dead_readDoneFinish (hc : 0 ≤ s.rdStatus → ReadChecks s) :
    (s.readDoneFinish env).dead = s.dead := by
  unfold Rep.readDoneFinish
  dsimp only
  split
  · exact dead_terminate
  · obtain ⟨hal, hck⟩ := hc (by omega)
    rw [if_neg fun h => h.elim (· hal) fun ⟨hne, hn⟩ => hck.elim hne hn]
    unfold Rep.alignWrite
    dsimp only
    split
    · split <;> exact dead_writeChunk
    · exact dead_writeChunk

/-- A retry, an error or a short read ends in `Read` or `Terminate`; only a checked read reaches
the completion check. -/
theorem dead_handleReadDone (hrs : s.rs = false) (hc : 0 ≤ s.rdStatus → ReadChecks s) :
    (s.handleReadDone env oc).dead = s.dead := by
  unfold Rep.handleReadDone
  split
  · exact dead_terminate
  · dsimp only
    split
    · split
      · exact dead_read hrs
      · exact dead_readDoneFinish fun h => absurd h (by omega)
    · split
      · exact dead_readDoneFinish fun h => absurd h (by dsimp only; decide)
      · exact dead_readDoneFinish hc

/-- A write completion reads on, or checks the tail carried at the new `mOffset`. -/
theorem dead_handleWriteDone {n : Int} (hrs : s.rs = false)
    (hc : s.rdOffset = s.offset + n ∧ s.rdBuf ≠ [] → 0 ≤ s.rdStatus →
      ReadChecks { s with offset := s.offset + n }) :
    (s.handleWriteDone env oc st n).dead = s.dead := by
  unfold Rep.handleWriteDone
  dsimp only
  split
  · exact dead_terminate
  · split
    · exact dead_handleReadDone hrs (hc ‹_›)
    · exact dead_read hrs

/-- The size reply stops the process only where `AllocChunk` succeeds without a file handle. -/
theorem dead_handleStartDone (hrs : s.rs = false) :
    (s.handleStartDone env oc).dead = s.dead ∨
      (s.handleStartDone env oc).dead = some "replication: invalid null file handle" := by
  unfold Rep.handleStartDone
  split
  · exact .inl dead_terminate
  · dsimp only
    split
    · exact .inl dead_terminate
    · split
      · exact .inl dead_terminate
      · split
        · exact .inr rfl
        · exact .inl (dead_read hrs)

theorem dead_cancel (hrs : s.rs = false) : (s.cancel env).dead = s.dead := by
  rw [Rep.cancel_of_direct hrs]
  unfold Rep.cancelBase
  dsimp only
  split
  · exact dead_terminate
  · rfl

theorem dead_run {cfg : Cfg} (hrs : s.rs = false) : (s.run cfg env).dead = s.dead := by
  unfold Rep.run
  dsimp only
  split
  · exact dead_terminate
  · split
    · exact dead_start hrs
    · rfl

end

section

variable {cfg : Cfg} {src : List UInt8} {ck : Int → UInt32} {s : Rep}

/-- A step of a direct replicator keeping `CopyInv`, along an event the peer and the store
answer as `DirectOk` says, dies only at the null file handle check. -/
theorem dead_step {env : Env} {e : Event} {s' : Rep} (h : CopyInv src ck s)
    (hok : DirectOk src ck s e) (hs : step cfg env e s = some s') :
    s'.dead = none ∨ s'.dead = some "replication: invalid null file handle" := by
  obtain ⟨hd, hen, rfl⟩ := step_eq_some hs
  obtain ⟨hrs, hrn, hq, hrr, hrc, hrg⟩ := h.mode
  suffices h' : (e.apply cfg env s).dead = s.dead ∨
      (e.apply cfg env s).dead = some "replication: invalid null file handle" from
    h'.imp_left (·.trans hd)
  cases e with
  | handleInline => simp [Event.enabled, hrn] at hen
  | handleQueued => simp [Event.enabled, hrn, hq] at hen
  | granted => exact .inl (dead_start hrs)
  | metadataDone => exact dead_handleStartDone hrs
  | readDone st data cks =>
    simp only [Event.enabled, hrn, Bool.not_false, Bool.true_and, beq_iff_eq] at hen
    rcases h.stage with h' | ⟨-, -, -, hro, -, hal, -, -⟩ | h' | h'
    · rcases h'.1 with h | ⟨h, -⟩ <;> simp [h] at hen
    · refine .inl (dead_handleReadDone hrs fun hst => ⟨Int.emod_eq_zero_of_dvd hal, ?_⟩)
      obtain ⟨-, -, hck⟩ := hok hst
      refine hck.imp id fun h => ?_
      show (cks.length : Int) = numBlocks data.length
      rw [h]
      exact length_blockCks ck _ (by omega)
    all_goals simp [h'.1] at hen
  | writeDone st n oc =>
    simp only [Event.enabled, hrn, Bool.not_false, Bool.true_and] at hen
    rcases h.stage with h' | h' | ⟨-, -, -, hal, -, -, hwhole, -, htail⟩ | h'
    · simp [h'.2.1] at hen
    · simp [h'.2.1] at hen
    · refine .inl (dead_handleWriteDone hrs fun ⟨hro, hne⟩ _ => ?_)
      obtain ⟨h1, -, h3, -, -, -, h7⟩ := htail hne
      have hpos : 0 < s.rdBuf.length := List.length_pos.mpr hne
      have hwd : CHECKSUM_BLOCKSIZE ∣ s.wrNumBytes := hwhole.resolve_right (by omega)
      refine ⟨?_, h7.imp id fun h => ?_⟩
      · show (s.offset + n) % CHECKSUM_BLOCKSIZE = 0
        rw [← hro, h1]
        exact Int.emod_eq_zero_of_dvd (Int.dvd_add hal hwd)
      · show (s.rdChecksum.length : Int) = numBlocks s.rdBuf.length
        rw [h]
        exact length_blockCks ck _ (by omega)
    · simp [h'.2.1] at hen
  | changeVersDone => exact .inl rfl
  | cancel => exact .inl (dead_cancel hrs)
  | readerDone => simp [Event.enabled, hrn, hrr] at hen
  | closeDone => simp [Event.enabled, hrn, hrc] at hen
  | readerNote => simp [Event.enabled, hrn, hrg] at hen

/-- Against a peer that serves the chunk and a store that writes whole requests, a direct
replicator stops the process only where `AllocChunk` succeeds without a file handle: the
completion check of `HandleReadDone` always passes. -/
theorem direct_never_dies (h : Reachable cfg DirectInit (DirectOk src ck) s) :
    s.dead = none ∨ s.dead = some "replication: invalid null file handle" := by
  cases h with
  | run env h0 =>
    obtain ⟨op, ct, lv, rsz, hl, rfl⟩ := h0
    exact .inl (dead_run (by simp [Rep.create, hl]))
  | step hr hok hs => exact dead_step (copyInv_reachable hr) hok hs

/-- The copy of a one-byte chunk: sized, read, written, and its version changed, alive. -/
theorem direct_never_dies_one_byte :
    let cfg : Cfg := ⟨false, 0, false, fun _ => []⟩
    let op : ReplicateChunkOp := ⟨1, 2, 1, 2, true, 0, 0, 0, 0, 0, 0, 0, []⟩
    let s := (Event.writeDone 0 1 false).apply cfg Env.ok ((Event.readDone 0 [7] []).apply cfg
      Env.ok ((Event.metadataDone 0 1 1).apply cfg Env.ok ((Rep.create op false true 0).run cfg
        Env.ok)))
    Reachable cfg DirectInit (DirectOk [7] fun _ => 0) s ∧ s.changeVers = true ∧ s.dead = none ∧
      (s.dead = none ∨ s.dead = some "replication: invalid null file handle") := by
  intro cfg op s
  have h0 := @Reachable.run cfg DirectInit (DirectOk [7] fun _ => 0) _ Env.ok
    ⟨op, false, true, 0, rfl, rfl⟩
  have h1 := @Reachable.step _ _ _ _ _ Env.ok (.metadataDone 0 1 1) h0 (by decide) rfl
  have h2 := @Reachable.step _ _ _ _ _ Env.ok (.readDone 0 [7] []) h1 (by decide) rfl
  have h3 : Reachable cfg DirectInit (DirectOk [7] fun _ => 0) s :=
    @Reachable.step _ _ _ _ _ Env.ok (.writeDone 0 1 false) h2 (by decide) rfl
  refine ⟨h3, ?_, ?_, direct_never_dies h3⟩ <;> decide

end

end QfsReplicator
