import QfsReplicator.Lifecycle.Discipline

/-! # A cancelled replicator starts no `ChangeChunkVers`

`Terminate` starts `ChangeChunkVers` only for a replicator that is done and not cancelled. The
base `Cancel()` sets `mCancelFlag` at once; the recovery replicator's `Cancel()` only posts the
cancel (`mPendingCancelFlag`), and `mCancelFlag` follows when `HandleCancel` runs. Until then the
recovery replicator ignores its completions, but for the write completion, which comes from the
chunk manager on the main thread: it may write the tail it carries, but it never finds the chunk
done, since a carried tail ends short of the chunk.

`Finish` is what that needs: `mDone` is set only on the way into `Terminate`, which answers the
op or leaves `ChangeChunkVers` outstanding, and a tail carried past an outstanding write ends
before the chunk does. Every step keeps it (`finish_step`). Once `Cancel()` has reached a
replicator (`Stopped`), every step keeps it there and leaves the count of `ChangeChunkVers`
starts as it was (`stopped_step`).
-/

namespace QfsReplicator

/-- `mDone` only with the op answered or `ChangeChunkVers` outstanding. -/
def Settles (s : Rep) : Prop := s.done = true → s.owner = false ∨ s.changeVers = true

/-- A tail carried in `mReadOp` past an outstanding write ends before the chunk. -/
def TailShort (s : Rep) : Prop := s.storeWrite = true → s.rdBuf ≠ [] → s.rdOffset < s.chunkSize

def Finish (s : Rep) : Prop := Settles s ∧ TailShort s

/-- `Cancel()` has reached the replicator: `mCancelFlag` is set or a cancel is posted. -/
def Stopped (s : Rep) : Prop := s.cancelFlag = true ∨ s.pendingCancel = true

/-- `t` is still stopped and has started no `ChangeChunkVers` since `s`. -/
def StillStopped (t s : Rep) : Prop := Stopped t ∧ t.versStarts = s.versStarts

section

variable {s : Rep} {env : Env} {oc : Bool} {st : Int}

theorem tailShort_idle (hs : s.storeWrite = false) : TailShort s := fun h => absurd h (by simp [hs])

theorem Finish.idle (hd : Settles s) (hs : s.storeWrite = false) : Finish s := ⟨hd, tailShort_idle hs⟩

theorem StillStopped.trans {t u : Rep} (h1 : StillStopped t s) (h2 : StillStopped u t) :
    StillStopped u s :=
  ⟨h2.1, h2.2.trans h1.2⟩

/-! ## `Finish` -/

theorem finish_handleReplicationDone (ht : TailShort s) : Finish (s.handleReplicationDone st) :=
  ⟨fun _ => .inl rfl, ht⟩

/-- `Terminate` answers the op or leaves `ChangeChunkVers` outstanding. -/
theorem finish_terminate (ht : TailShort s) : Finish (s.terminate env st) := by
  unfold Rep.terminate
  split
  · dsimp only
    split
    · exact ⟨fun _ => .inr rfl, ht⟩
    · exact finish_handleReplicationDone ht
  · exact finish_handleReplicationDone ht

theorem finish_cancelBase (hf : Finish s) : Finish (s.cancelBase env) := by
  unfold Rep.cancelBase
  dsimp only
  split
  · exact finish_terminate hf.2
  · exact hf

theorem finish_directRead (hf : Finish s) : Finish (s.directRead env) := by
  unfold Rep.directRead
  split
  · exact finish_terminate hf.2
  · exact ⟨hf.1, fun _ h => absurd rfl h⟩

theorem finish_enqueue {inState : State} (hf : Finish s) : Finish (s.enqueue oc inState) := by
  unfold Rep.enqueue Rep.post Rep.die
  repeat' split
  all_goals exact hf

theorem finish_read (hf : Finish s) : Finish (s.read env oc) := by
  unfold Rep.read Rep.rsRead
  split
  · split
    · exact hf
    · exact finish_enqueue hf
  · exact finish_directRead hf

theorem finish_handleStartDone (hf : Finish s) (hs : s.storeWrite = false) :
    Finish (s.handleStartDone env oc) := by
  unfold Rep.handleStartDone
  split
  · exact finish_terminate hf.2
  · dsimp only
    split
    · exact finish_terminate (tailShort_idle hs)
    · split
      · exact finish_terminate (tailShort_idle hs)
      · split
        · exact .idle hf.1 hs
        · exact finish_read (.idle hf.1 hs)

/-- The aligned write keeps a tail only short of the end of the chunk. -/
theorem alignWrite_tail :
    s.alignWrite.rdBuf ≠ [] → s.alignWrite.rdOffset < s.alignWrite.chunkSize := by
  unfold Rep.alignWrite
  dsimp only
  split
  · split
    · rename_i ht
      intro _
      dsimp only
      omega
    · exact fun h => absurd rfl h
  · exact fun h => absurd rfl h

/-- The aligned write leaves the flags alone. -/
theorem alignWrite_frame : s.alignWrite.done = s.done ∧ s.alignWrite.owner = s.owner ∧
    s.alignWrite.changeVers = s.changeVers ∧ s.alignWrite.storeWrite = s.storeWrite ∧
    s.alignWrite.cancelFlag = s.cancelFlag ∧ s.alignWrite.pendingCancel = s.pendingCancel ∧
    s.alignWrite.versStarts = s.versStarts := by
  unfold Rep.alignWrite
  dsimp only
  split
  · split <;> exact ⟨rfl, rfl, rfl, rfl, rfl, rfl, rfl⟩
  · exact ⟨rfl, rfl, rfl, rfl, rfl, rfl, rfl⟩

theorem finish_writeChunk (hd : Settles s) (hs : s.storeWrite = false)
    (ht : s.rdBuf ≠ [] → s.rdOffset < s.chunkSize) : Finish (s.writeChunk env) := by
  unfold Rep.writeChunk
  dsimp only
  split
  · exact finish_terminate (tailShort_idle hs)
  · exact ⟨hd, fun _ => ht⟩

theorem finish_readDoneFinish (hf : Finish s) (hs : s.storeWrite = false) :
    Finish (s.readDoneFinish env) := by
  unfold Rep.readDoneFinish
  dsimp only
  split
  · exact finish_terminate (tailShort_idle hs)
  · split
    · exact hf
    · obtain ⟨hd, ho, hv, hs', -⟩ := @alignWrite_frame s
      exact finish_writeChunk (by rw [Settles, hd, ho, hv]; exact hf.1) (hs'.trans hs) alignWrite_tail

theorem finish_handleReadDone (hf : Finish s) (hs : s.storeWrite = false) :
    Finish (s.handleReadDone env oc) := by
  unfold Rep.handleReadDone
  split
  · exact finish_terminate hf.2
  · dsimp only
    split
    · split
      · exact finish_read hf
      · exact finish_readDoneFinish hf hs
    · split
      · exact finish_readDoneFinish (.idle hf.1 hs) hs
      · exact finish_readDoneFinish hf hs

theorem finish_handleWriteDone {n : Int} (hf : Finish s) : Finish (s.handleWriteDone env oc st n) := by
  unfold Rep.handleWriteDone
  dsimp only
  split
  · exact finish_terminate (tailShort_idle rfl)
  · split
    · exact finish_handleReadDone (.idle hf.1 rfl) rfl
    · exact finish_read (.idle hf.1 rfl)

theorem finish_handleCompletion {md : Bool} (hf : Finish s) (hs : s.storeWrite = false) :
    Finish (s.handleCompletion env oc md) := by
  unfold Rep.handleCompletion
  dsimp only
  split
  · exact hf
  · split
    · exact finish_handleStartDone hf hs
    · exact finish_handleReadDone hf hs

theorem finish_rsStart (hf : Finish s) (hs : s.storeWrite = false) : Finish (s.rsStart oc env) := by
  unfold Rep.rsStart
  split
  · exact hf
  · dsimp only
    split
    · exact finish_handleCompletion hf hs
    · exact finish_enqueue hf

theorem finish_handleStart (hf : Finish s) (hs : s.storeWrite = false) :
    Finish (s.handleStart env oc) := by
  have k0 (a : Int) : Finish ({ s with mdStatus := a }.handleCompletion env oc true) :=
    finish_handleCompletion hf hs
  have k1 (a m : Int) :
      Finish ({ { s with mdStatus := a }.touchOwner with mdStatus := m }.handleCompletion env oc true) :=
    finish_handleCompletion hf hs
  unfold Rep.handleStart
  split
  · exact hf
  · dsimp only
    repeat' split
    all_goals first | with_reducible exact k0 _ | exact k1 _ _

theorem finish_handleRead (hf : Finish s) (hs : s.storeWrite = false) :
    Finish (s.handleRead env oc) := by
  unfold Rep.handleRead
  split
  · exact finish_handleCompletion hf hs
  · dsimp only
    split
    · exact finish_handleCompletion (.idle hf.1 hs) hs
    · exact .idle hf.1 hs

theorem finish_doneFinish {cfg : Cfg} {inOffset ps : Int} {buf : Option (List UInt8)} {ok : Bool}
    (hf : Finish s) (hs : s.storeWrite = false) :
    Finish (s.doneFinish cfg env oc st inOffset buf ok ps) := by
  unfold Rep.doneFinish
  repeat' split
  all_goals first | exact hf | exact finish_handleCompletion hf hs

theorem finish_doneRead {cfg : Cfg} {inOffset : Int} {b : List UInt8} (hf : Finish s)
    (hs : s.storeWrite = false) : Finish (s.doneRead cfg env oc inOffset b) := by
  unfold Rep.doneRead Rep.doneChecksums
  dsimp only
  repeat' split
  all_goals first
    | exact finish_doneFinish (.idle hf.1 hs) hs
    | exact finish_handleRead (.idle hf.1 hs) hs

theorem finish_completionDone {cfg : Cfg} {inOffset inSize : Int} {buf : Option (List UInt8)}
    (hr : s.readInFlight = true → s.storeWrite = false) (hf : Finish s) :
    Finish (s.completionDone cfg env oc st inOffset inSize buf) := by
  unfold Rep.completionDone
  by_cases h1 : buf.isSome ∧ (inOffset < 0 ∨ inSize > s.rdNumBytes ∨ s.readInFlight = false)
  · rw [if_pos h1]; exact hf
  rw [if_neg h1]
  by_cases h2 : s.pendingClose = true
  · rw [if_pos h2]; split <;> exact hf
  rw [if_neg h2]
  by_cases h3 : (!s.readInFlight) = true
  · rw [if_pos h3]; split <;> exact hf
  rw [if_neg h3]
  have hs : s.storeWrite = false := hr (by simpa using h3)
  dsimp only
  split
  · exact hf
  · split
    · split
      · exact finish_doneRead hf hs
      · exact finish_doneFinish hf hs
    · exact finish_doneFinish hf hs

theorem finish_handleCancel (hsk : s.storeWrite = true → s.state = .kNone) (hf : Finish s) :
    Finish (s.handleCancel env oc) := by
  unfold Rep.handleCancel
  dsimp only
  by_cases h1 : env.shutdownUnref = true ∧ s.pendingClose = true
  · rw [if_pos h1]; exact hf
  rw [if_neg h1]
  by_cases h2 : s.queued = true
  · rw [if_pos h2]; exact hf
  rw [if_neg h2]
  by_cases hw : s.waiting = true
  · rw [if_pos (.inl hw)]
    exact finish_cancelBase hf
  · have hw : s.waiting = false := by simpa using hw
    rw [cancelBase_of_waiting_false
      (s := { s with readerRegistered := false, readerReads := 0, readerClose := false }) hw]
    dsimp only
    split
    · exact hf
    · rename_i hk
      have hs : s.storeWrite = false := by
        cases h' : s.storeWrite
        · rfl
        · exact absurd (.inr (hsk h')) hk
      split
      · exact finish_handleReadDone hf hs
      · exact finish_handleStartDone hf hs

theorem finish_handle (hsk : s.storeWrite = true → s.state = .kNone) (hf : Finish s) :
    Finish (s.handle env oc) := by
  have hs (hk : s.state ≠ .kNone) : s.storeWrite = false := by
    cases h' : s.storeWrite
    · rfl
    · exact absurd (hsk h') hk
  unfold Rep.handle
  split
  · exact finish_handleCancel hsk hf
  · split
    · exact finish_handleStart hf (hs (by simp [*]))
    · exact finish_handleRead hf (hs (by simp [*]))
    · exact hf

theorem finish_cancel (hf : Finish s) : Finish (s.cancel env) := by
  unfold Rep.cancel Rep.rsCancel
  dsimp only
  split
  · split
    · exact hf
    · exact finish_enqueue hf
  · exact finish_cancelBase hf

theorem finish_start {cfg : Cfg} (hf : Finish s) (hs : s.storeWrite = false) :
    Finish (s.start cfg env oc) := by
  unfold Rep.start
  split
  · exact finish_rsStart hf hs
  · exact hf

theorem finish_run {cfg : Cfg} (hf : Finish s) (hs : s.storeWrite = false) : Finish (s.run cfg env) := by
  unfold Rep.run
  dsimp only
  split
  · exact finish_terminate (tailShort_idle hs)
  · split
    · exact finish_start hf hs
    · exact hf

/-- Every step keeps `Finish`. -/
theorem finish_step {cfg : Cfg} {e : Event} {s' : Rep} (h : Disc s) (hf : Finish s)
    (hs : step cfg env e s = some s') : Finish s' := by
  obtain ⟨-, he, rfl⟩ := step_eq_some hs
  obtain ⟨-, hwt, hpo, hsw, -, hri, -⟩ := h.2
  have hsk (h' : s.storeWrite = true) : s.state = .kNone := (hsw h').2
  cases e with
  | handleInline => exact finish_handle hsk hf
  | handleQueued => exact finish_handle hsk hf
  | granted =>
    simp only [Event.enabled, Bool.and_eq_true] at he
    exact finish_start hf (hwt he.2).1.2.2.1
  | metadataDone =>
    simp only [Event.enabled, Bool.and_eq_true, beq_iff_eq] at he
    exact finish_handleStartDone hf (hpo (by simp [he.2])).2.2.1
  | readDone =>
    simp only [Event.enabled, Bool.and_eq_true, beq_iff_eq] at he
    have hs := (hpo (by simp [he.2])).2.2.1
    exact finish_handleReadDone (.idle hf.1 hs) hs
  | writeDone => exact finish_handleWriteDone hf
  | changeVersDone => exact finish_handleReplicationDone hf.2
  | cancel => exact finish_cancel hf
  | readerDone => exact finish_completionDone (fun h' => (hri h').1.2.2.1) hf
  | closeDone => exact finish_completionDone (fun h' => (hri h').1.2.2.1) hf
  | readerNote => exact finish_completionDone (fun h' => (hri h').1.2.2.1) hf

theorem finish_create {op : ReplicateChunkOp} {ct lv : Bool} {rsz : Int} :
    Finish (Rep.create op ct lv rsz) :=
  .idle (fun h => by simp [Rep.create] at h) rfl

/-- Every replicator run from a fresh one keeps the discipline and `Finish`. -/
theorem finish_reachable_of_fresh {cfg : Cfg} {Init : Rep → Prop} {Ok : Rep → Event → Prop}
    (hi : ∀ {s}, Init s → ∃ op ct lv rsz, s = Rep.create op ct lv rsz)
    (h : Reachable cfg Init Ok s) : Finish s := by
  induction h with
  | run env h0 =>
    obtain ⟨op, ct, lv, rsz, rfl⟩ := hi h0
    exact finish_run finish_create rfl
  | step hr _ hs ih => exact finish_step (disc_reachable_of_fresh hi hr) ih hs

/-! ## Once cancelled -/

/-- `Terminate` starts no `ChangeChunkVers` for a replicator that is cancelled or not done. -/
theorem stopped_terminate (h : Stopped s) (hd : s.done = true → s.cancelFlag = true) :
    StillStopped (s.terminate env st) s := by
  have hc : (s.done && !s.cancelFlag) = false := by
    cases hdn : s.done
    · rfl
    · simp [hd hdn]
  unfold Rep.terminate
  rw [if_neg (by simp [hc])]
  exact ⟨h, rfl⟩

/-- The base `Cancel()` cancels at once. -/
theorem stopped_cancelBase : StillStopped (s.cancelBase env) s := by
  unfold Rep.cancelBase
  dsimp only
  split
  · exact stopped_terminate (.inl rfl) fun _ => rfl
  · exact ⟨.inl rfl, rfl⟩

theorem stopped_enqueue {inState : State} (h : Stopped s) : StillStopped (s.enqueue oc inState) s := by
  unfold Rep.enqueue Rep.post Rep.die
  repeat' split
  all_goals exact ⟨h, rfl⟩

/-- Every `Cancel()` leaves the replicator stopped. -/
theorem stopped_cancel : StillStopped (s.cancel env) s := by
  unfold Rep.cancel Rep.rsCancel
  dsimp only
  split
  · split
    · exact ⟨.inr ‹_›, rfl⟩
    · exact stopped_enqueue (.inr rfl)
  · exact stopped_cancelBase

theorem stopped_handleStartDone (hc : s.cancelFlag = true) : StillStopped (s.handleStartDone env oc) s := by
  unfold Rep.handleStartDone
  rw [if_pos (by simp [hc])]
  exact stopped_terminate (.inl hc) fun _ => hc

theorem stopped_handleReadDone (hc : s.cancelFlag = true) : StillStopped (s.handleReadDone env oc) s := by
  unfold Rep.handleReadDone
  rw [if_pos hc]
  exact stopped_terminate (.inl hc) fun _ => hc

theorem stopped_handleCompletion {md : Bool} (hpc : s.pendingCancel = true) :
    StillStopped (s.handleCompletion env oc md) s := by
  unfold Rep.handleCompletion
  rw [if_pos hpc]
  exact ⟨.inr hpc, rfl⟩

theorem stopped_read (hpc : s.pendingCancel = true) (hrs : s.rs = true) : StillStopped (s.read env oc) s := by
  unfold Rep.read Rep.rsRead
  rw [if_pos hrs, if_pos hpc]
  exact ⟨.inr hpc, rfl⟩

theorem stopped_handleRead (hpc : s.pendingCancel = true) : StillStopped (s.handleRead env oc) s := by
  unfold Rep.handleRead
  split
  · exact stopped_handleCompletion hpc
  · dsimp only
    split
    · exact stopped_handleCompletion hpc
    · exact ⟨.inr hpc, rfl⟩

theorem stopped_doneFinish {cfg : Cfg} {inOffset ps : Int} {buf : Option (List UInt8)} {ok : Bool}
    (hpc : s.pendingCancel = true) : StillStopped (s.doneFinish cfg env oc st inOffset buf ok ps) s := by
  unfold Rep.doneFinish Rep.die
  repeat' split
  all_goals first | exact ⟨.inr hpc, rfl⟩ | exact stopped_handleCompletion hpc

theorem stopped_doneRead {cfg : Cfg} {inOffset : Int} {b : List UInt8}
    (hpc : s.pendingCancel = true) : StillStopped (s.doneRead cfg env oc inOffset b) s := by
  unfold Rep.doneRead Rep.doneChecksums
  dsimp only
  repeat' split
  all_goals first | exact stopped_doneFinish hpc | exact stopped_handleRead hpc

/-- The reader's completions change nothing for a replicator with a cancel posted. -/
theorem stopped_completionDone {cfg : Cfg} {inOffset inSize : Int} {buf : Option (List UInt8)}
    (hpc : s.pendingCancel = true) : StillStopped (s.completionDone cfg env oc st inOffset inSize buf) s := by
  unfold Rep.completionDone
  by_cases h1 : buf.isSome ∧ (inOffset < 0 ∨ inSize > s.rdNumBytes ∨ s.readInFlight = false)
  · rw [if_pos h1]; exact ⟨.inr hpc, rfl⟩
  rw [if_neg h1]
  by_cases h2 : s.pendingClose = true
  · rw [if_pos h2]; split <;> exact ⟨.inr hpc, rfl⟩
  rw [if_neg h2]
  by_cases h3 : (!s.readInFlight) = true
  · rw [if_pos h3]; split <;> exact ⟨.inr hpc, rfl⟩
  rw [if_neg h3]
  dsimp only
  split
  · exact ⟨.inr hpc, rfl⟩
  · split
    · split
      · exact stopped_doneRead hpc
      · exact stopped_doneFinish hpc
    · exact stopped_doneFinish hpc

/-- `HandleCancel` cancels before it fails the claimed transition. -/
theorem stopped_handleCancel (hpc : s.pendingCancel = true) : StillStopped (s.handleCancel env oc) s := by
  unfold Rep.handleCancel
  dsimp only
  by_cases h1 : env.shutdownUnref = true ∧ s.pendingClose = true
  · rw [if_pos h1]; exact ⟨.inr hpc, rfl⟩
  rw [if_neg h1]
  by_cases h2 : s.queued = true
  · rw [if_pos h2]; exact ⟨.inr hpc, rfl⟩
  rw [if_neg h2]
  by_cases hw : s.waiting = true
  · rw [if_pos (.inl hw)]
    exact stopped_cancelBase
  · rw [cancelBase_of_waiting_false
      (s := { s with readerRegistered := false, readerReads := 0, readerClose := false })
      (by simpa using hw)]
    dsimp only
    split
    · exact ⟨.inl rfl, rfl⟩
    · split
      · exact stopped_handleReadDone rfl
      · exact stopped_handleStartDone rfl

theorem stopped_handle (hpc : s.pendingCancel = true) : StillStopped (s.handle env oc) s := by
  unfold Rep.handle
  rw [if_pos hpc]
  exact stopped_handleCancel hpc

theorem stopped_writeChunk (h : Stopped s) (hd : s.done = true → s.cancelFlag = true) :
    StillStopped (s.writeChunk env) s := by
  unfold Rep.writeChunk
  dsimp only
  split
  · exact stopped_terminate h hd
  · exact ⟨h, rfl⟩

/-- Before the end of the chunk, `HandleReadDone` of a recovery replicator with a cancel posted
writes on, or fails, but never finishes the chunk. -/
theorem stopped_readDoneFinish (h : Stopped s) (hd : s.done = false) (hlt : s.offset < s.chunkSize) :
    StillStopped (s.readDoneFinish env) s := by
  unfold Rep.readDoneFinish
  dsimp only
  split
  · exact stopped_terminate h fun hd' => by simp at hd'; omega
  · split
    · exact ⟨h, rfl⟩
    · obtain ⟨hd', -, -, -, hc, hpc, hv⟩ := @alignWrite_frame s
      have hw : StillStopped (s.alignWrite.writeChunk env) s.alignWrite :=
        stopped_writeChunk (by rw [Stopped, hc, hpc]; exact h) fun hdd => by simp [hd', hd] at hdd
      exact ⟨hw.1, hw.2.trans hv⟩

theorem stopped_handleReadDone_short (h : Stopped s) (hpc : s.pendingCancel = true) (hrs : s.rs = true)
    (hd : s.done = false) (hlt : s.offset < s.chunkSize) : StillStopped (s.handleReadDone env oc) s := by
  unfold Rep.handleReadDone
  split
  · exact stopped_terminate h fun hd' => by simp [hd] at hd'
  · dsimp only
    split
    · split
      · exact stopped_read hpc hrs
      · exact stopped_readDoneFinish h hd hlt
    · split
      · exact stopped_readDoneFinish h hd hlt
      · exact stopped_readDoneFinish h hd hlt

/-- The write completion of a cancelled replicator: with `mCancelFlag` it terminates; with only a
cancel posted (a recovery replicator) it writes the tail it carries, short of the chunk's end,
or reads, which is ignored. -/
theorem stopped_handleWriteDone {n : Int} (h : Disc s) (hf : Finish s) (hsw : s.storeWrite = true)
    (hst : Stopped s) : StillStopped (s.handleWriteDone env oc st n) s := by
  unfold Rep.handleWriteDone
  dsimp only
  by_cases hc : s.cancelFlag = true
  · rw [if_pos (.inl hc)]
    exact stopped_terminate hst fun _ => hc
  · have hpc : s.pendingCancel = true := hst.resolve_left hc
    have hrs : s.rs = true := by
      cases hrs : s.rs
      · simp [(mode_direct h.1.1 hrs).2.2.1] at hpc
      · rfl
    obtain ⟨hq, -⟩ := h.2.2.2.2.1 hsw
    have hd : s.done = false := by
      cases hdn : s.done
      · rfl
      · rcases hf.1 hdn with ho | hv
        · exact absurd (owner_of_busy h.2 fun q => by simp [q.2.2.1] at hsw) (by simp [ho])
        · exact absurd hv (by simp [show s.changeVers = false from hq.2.2.2.1])
    split
    · exact stopped_terminate hst fun hd' => by simp [hd] at hd'
    · split
      · rename_i htail
        exact stopped_handleReadDone_short hst hpc hrs hd (htail.1 ▸ hf.2 hsw htail.2)
      · exact stopped_read hpc hrs

/-- Once `Cancel()` has reached a replicator, every step keeps it there and starts no
`ChangeChunkVers`. -/
theorem stopped_step {cfg : Cfg} {e : Event} {s' : Rep} (h : Disc s) (hf : Finish s) (hst : Stopped s)
    (hs : step cfg env e s = some s') : StillStopped s' s := by
  obtain ⟨-, he, rfl⟩ := step_eq_some hs
  have hmo := h.1.1
  have hpcs (hrs : s.rs = true) : s.pendingCancel = true :=
    hst.elim (fun hc => (mode_recovery hmo hrs).2.2.1 hc) id
  have hcfd (hrs : s.rs = false) : s.cancelFlag = true :=
    hst.resolve_right (by simp [(mode_direct hmo hrs).2.2.1])
  have hdirect (hp : s.peerOp ≠ none) : s.cancelFlag = true := hcfd (ready_peerDone h hp).1
  cases e with
  | handleInline =>
    have hrs : s.rs = true := by
      cases hrs : s.rs
      · simp [Event.enabled, (mode_direct hmo hrs).2.2.2.2.1] at he
      · rfl
    exact stopped_handle (hpcs hrs)
  | handleQueued =>
    simp only [Event.enabled, Bool.and_eq_true, Bool.not_eq_true'] at he
    have hrs : s.rs = true := by
      cases hrs : s.rs
      · simp [(mode_direct hmo hrs).2.2.2.1] at he
      · rfl
    exact stopped_handle (hpcs hrs)
  | granted =>
    show StillStopped ({ s with waiting := false }.start cfg env false) s
    unfold Rep.start Rep.rsStart
    split
    · rw [if_pos (hpcs ‹_›)]
      exact ⟨hst, rfl⟩
    · exact ⟨hst, rfl⟩
  | metadataDone =>
    simp only [Event.enabled, Bool.and_eq_true, beq_iff_eq] at he
    exact stopped_handleStartDone (hdirect (by simp [he.2]))
  | readDone =>
    simp only [Event.enabled, Bool.and_eq_true, beq_iff_eq] at he
    exact stopped_handleReadDone (hdirect (by simp [he.2]))
  | writeDone =>
    simp only [Event.enabled, Bool.and_eq_true] at he
    exact stopped_handleWriteDone h hf he.2 hst
  | changeVersDone => exact ⟨hst, rfl⟩
  | cancel => exact stopped_cancel
  | readerDone =>
    simp only [Event.enabled, Bool.and_eq_true, decide_eq_true_eq] at he
    exact stopped_completionDone (s := { s with readerReads := s.readerReads - 1 })
      (hpcs (rs_of_reader h (.inr (.inr he.2))))
  | closeDone =>
    simp only [Event.enabled, Bool.and_eq_true] at he
    exact stopped_completionDone (s := { s with readerClose := false })
      (hpcs (rs_of_reader h (.inr (.inl he.2))))
  | readerNote =>
    simp only [Event.enabled, Bool.and_eq_true, beq_iff_eq, Bool.not_eq_true'] at he
    exact stopped_completionDone (hpcs (rs_of_reader h (.inl he.1.1.2)))

end

end QfsReplicator
