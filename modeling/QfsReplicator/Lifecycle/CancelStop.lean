import QfsReplicator.Lifecycle.Freeze

/-! # What a cancelled replicator still writes

The base `Cancel()` sets `mCancelFlag`, and every completion after it ends in `Terminate`. A
recovery replicator's `Cancel()` only posts the cancel, and until `HandleCancel` runs it ignores
its completions, all but the chunk manager's write completion: when the write in flight split a
tail off the last read, that completion writes the tail. A tail is what lies past the last whole
checksum block, so a write in flight carries less than a block (`ShortCarry`, kept by every
step), and writing it splits nothing off again.

`tailDue` counts that one write still owed, and `Winds` says a step owes no more than it did:
its writes since `s` and what it still owes are at most what `s` owed. Hence once `Cancel()` has
reached a replicator, no later event calls `AllocChunk`, and `WriteChunk` is called at most once
more, for a tail already in flight, and never after `mCancelFlag` is set
(`cancel_stops_copy`).
-/

namespace QfsReplicator

/-- A write in flight carries less than a checksum block in `mReadOp`. -/
def ShortCarry (s : Rep) : Prop :=
  s.storeWrite = true → (s.rdBuf.length : Int) < CHECKSUM_BLOCKSIZE

/-- The write a stopped replicator may still owe: the tail carried past a write in flight, unless
`mCancelFlag` is set. -/
def tailDue (s : Rep) : Nat :=
  if s.cancelFlag = false ∧ s.storeWrite = true ∧ s.rdBuf ≠ [] then 1 else 0

/-- `t` is still stopped, cancelled if `s` was, has allocated nothing and only appended writes
since `s`, and those writes with what `t` still owes are no more than `s` owed. -/
def Winds (t s : Rep) : Prop :=
  Stopped t ∧ (s.cancelFlag = true → t.cancelFlag = true) ∧ t.allocs = s.allocs ∧
    s.writes <+: t.writes ∧ t.writes.length + tailDue t ≤ s.writes.length + tailDue s

section

variable {s u : Rep} {env : Env} {oc : Bool} {st : Int}

/-! ## A carried tail is short -/

theorem shortCarry_idle (hs : s.storeWrite = false) : ShortCarry s := fun h =>
  Bool.noConfusion (hs.symm.trans h)

theorem shortCarry_empty (hb : s.rdBuf = []) : ShortCarry s := fun _ => by
  rw [hb, CHECKSUM_BLOCKSIZE_eq]
  decide

theorem shortCarry_terminate (hc : ShortCarry s) : ShortCarry (s.terminate env st) := by
  unfold Rep.terminate
  split
  · dsimp only
    split <;> exact hc
  · exact hc

theorem shortCarry_cancelBase (hc : ShortCarry s) : ShortCarry (s.cancelBase env) := by
  unfold Rep.cancelBase
  dsimp only
  split
  · exact shortCarry_terminate hc
  · exact hc

theorem shortCarry_directRead (hc : ShortCarry s) : ShortCarry (s.directRead env) := by
  unfold Rep.directRead
  split
  · exact shortCarry_terminate hc
  · exact shortCarry_empty rfl

theorem shortCarry_enqueue {inState : State} (hc : ShortCarry s) :
    ShortCarry (s.enqueue oc inState) := by
  obtain ⟨_, -, _, _, _, h⟩ := s.enqueue_frame oc inState
  rw [h]
  exact hc

theorem shortCarry_read (hc : ShortCarry s) : ShortCarry (s.read env oc) := by
  unfold Rep.read Rep.rsRead
  split
  · split
    · exact hc
    · exact shortCarry_enqueue hc
  · exact shortCarry_directRead hc

theorem shortCarry_handleStartDone (hc : ShortCarry s) : ShortCarry (s.handleStartDone env oc) := by
  unfold Rep.handleStartDone
  split
  · exact shortCarry_terminate hc
  · dsimp only
    split
    · exact shortCarry_terminate hc
    · split
      · exact shortCarry_terminate hc
      · split
        · exact hc
        · exact shortCarry_read hc

/-- The aligned write leaves less than a block in `mReadOp`. -/
theorem alignWrite_short : (s.alignWrite.rdBuf.length : Int) < CHECKSUM_BLOCKSIZE := by
  unfold Rep.alignWrite
  dsimp only
  rw [CHECKSUM_BLOCKSIZE_eq]
  split
  · split
    · rw [List.length_drop]
      omega
    · simp
  · simp

theorem shortCarry_writeChunk (hc : ShortCarry s) (hb : (s.rdBuf.length : Int) < CHECKSUM_BLOCKSIZE) :
    ShortCarry (s.writeChunk env) := by
  unfold Rep.writeChunk
  dsimp only
  split
  · exact shortCarry_terminate hc
  · exact fun _ => hb

theorem shortCarry_readDoneFinish (hc : ShortCarry s) : ShortCarry (s.readDoneFinish env) := by
  unfold Rep.readDoneFinish
  dsimp only
  split
  · exact shortCarry_terminate hc
  · split
    · exact hc
    · exact shortCarry_writeChunk (fun _ => alignWrite_short) alignWrite_short

theorem shortCarry_handleReadDone (hc : ShortCarry s) : ShortCarry (s.handleReadDone env oc) := by
  unfold Rep.handleReadDone
  split
  · exact shortCarry_terminate hc
  · dsimp only
    split
    · split
      · exact shortCarry_read hc
      · exact shortCarry_readDoneFinish hc
    · split <;> exact shortCarry_readDoneFinish hc

/-- The write completion releases the write before anything else. -/
theorem shortCarry_handleWriteDone {n : Int} : ShortCarry (s.handleWriteDone env oc st n) := by
  unfold Rep.handleWriteDone
  dsimp only
  split
  · exact shortCarry_terminate (shortCarry_idle rfl)
  · split
    · exact shortCarry_handleReadDone (shortCarry_idle rfl)
    · exact shortCarry_read (shortCarry_idle rfl)

theorem shortCarry_handleCompletion {md : Bool} (hc : ShortCarry s) :
    ShortCarry (s.handleCompletion env oc md) := by
  unfold Rep.handleCompletion
  dsimp only
  split
  · exact hc
  · split
    · exact shortCarry_handleStartDone hc
    · exact shortCarry_handleReadDone hc

theorem shortCarry_rsStart (hc : ShortCarry s) : ShortCarry (s.rsStart oc env) := by
  unfold Rep.rsStart
  split
  · exact hc
  · dsimp only
    split
    · exact shortCarry_handleCompletion hc
    · exact shortCarry_enqueue hc

theorem shortCarry_handleStart (hc : ShortCarry s) : ShortCarry (s.handleStart env oc) := by
  rcases s.handleStart_cases env oc with h | ⟨_, _, h⟩ <;> rw [h]
  · exact hc
  · exact shortCarry_handleCompletion hc

theorem shortCarry_handleRead (hc : ShortCarry s) : ShortCarry (s.handleRead env oc) := by
  unfold Rep.handleRead
  split
  · exact shortCarry_handleCompletion hc
  · dsimp only
    split
    · exact shortCarry_handleCompletion (shortCarry_empty rfl)
    · exact shortCarry_empty rfl

theorem shortCarry_doneFinish {cfg : Cfg} {inOffset ps : Int} {buf : Option (List UInt8)}
    {ok : Bool} (hc : ShortCarry s) : ShortCarry (s.doneFinish cfg env oc st inOffset buf ok ps) := by
  rcases s.doneFinish_cases cfg env oc st inOffset buf ok ps with ⟨_, h⟩ | h | ⟨_, h⟩ <;> rw [h]
  · exact hc
  · exact hc
  · exact shortCarry_handleCompletion hc

theorem shortCarry_doneRead {cfg : Cfg} {inOffset : Int} {b : List UInt8}
    (hs : s.storeWrite = false) : ShortCarry (s.doneRead cfg env oc inOffset b) := by
  unfold Rep.doneRead Rep.doneChecksums
  dsimp only
  repeat' split
  all_goals first
    | exact shortCarry_doneFinish (shortCarry_idle hs)
    | exact shortCarry_handleRead (shortCarry_idle hs)

theorem shortCarry_completionDone {cfg : Cfg} {inOffset inSize : Int} {buf : Option (List UInt8)}
    (hr : s.readInFlight = true → s.storeWrite = false) (hc : ShortCarry s) :
    ShortCarry (s.completionDone cfg env oc st inOffset inSize buf) := by
  unfold Rep.completionDone
  by_cases h1 : buf.isSome ∧ (inOffset < 0 ∨ inSize > s.rdNumBytes ∨ s.readInFlight = false)
  · rw [if_pos h1]; exact hc
  rw [if_neg h1]
  by_cases h2 : s.pendingClose = true
  · rw [if_pos h2]; split <;> exact hc
  rw [if_neg h2]
  by_cases h3 : (!s.readInFlight) = true
  · rw [if_pos h3]; split <;> exact hc
  rw [if_neg h3]
  have hs : s.storeWrite = false := hr (by simpa using h3)
  dsimp only
  split
  · exact hc
  · split
    · split
      · exact shortCarry_doneRead hs
      · exact shortCarry_doneFinish hc
    · exact shortCarry_doneFinish hc

theorem shortCarry_handleCancel (hc : ShortCarry s) : ShortCarry (s.handleCancel env oc) := by
  unfold Rep.handleCancel
  dsimp only
  by_cases h1 : env.shutdownUnref = true ∧ s.pendingClose = true
  · rw [if_pos h1]; exact hc
  rw [if_neg h1]
  by_cases h2 : s.queued = true
  · rw [if_pos h2]; exact hc
  rw [if_neg h2]
  split
  · exact shortCarry_cancelBase hc
  · split
    · exact shortCarry_handleReadDone (shortCarry_cancelBase hc)
    · exact shortCarry_handleStartDone (shortCarry_cancelBase hc)

theorem shortCarry_handle (hc : ShortCarry s) : ShortCarry (s.handle env oc) := by
  unfold Rep.handle
  split
  · exact shortCarry_handleCancel hc
  · split
    · exact shortCarry_handleStart hc
    · exact shortCarry_handleRead hc
    · exact hc

theorem shortCarry_cancel (hc : ShortCarry s) : ShortCarry (s.cancel env) := by
  unfold Rep.cancel Rep.rsCancel
  dsimp only
  split
  · split
    · exact hc
    · exact shortCarry_enqueue hc
  · exact shortCarry_cancelBase hc

theorem shortCarry_start {cfg : Cfg} (hc : ShortCarry s) : ShortCarry (s.start cfg env oc) := by
  unfold Rep.start
  split
  · exact shortCarry_rsStart hc
  · exact hc

/-- Every step keeps a carried tail short of a block. -/
theorem shortCarry_step {cfg : Cfg} {e : Event} {s' : Rep} (h : Disc s) (hc : ShortCarry s)
    (hs : step cfg env e s = some s') : ShortCarry s' := by
  obtain ⟨-, he, rfl⟩ := step_eq_some hs
  obtain ⟨-, -, hpo, -, -, hri, -⟩ := h.2
  cases e with
  | handleInline => exact shortCarry_handle hc
  | handleQueued => exact shortCarry_handle hc
  | granted => exact shortCarry_start hc
  | metadataDone => exact shortCarry_handleStartDone hc
  | readDone =>
    simp only [Event.enabled, Bool.and_eq_true, beq_iff_eq] at he
    exact shortCarry_handleReadDone (shortCarry_idle (hpo (by simp [he.2])).2.2.1)
  | writeDone => exact shortCarry_handleWriteDone
  | changeVersDone => exact hc
  | cancel => exact shortCarry_cancel hc
  | readerDone => exact shortCarry_completionDone (fun h' => (hri h').1.2.2.1) hc
  | closeDone => exact shortCarry_completionDone (fun h' => (hri h').1.2.2.1) hc
  | readerNote => exact shortCarry_completionDone (fun h' => (hri h').1.2.2.1) hc

end

section

variable {cfg : Cfg} {maxReadSize quota ioBufferSize : Int} {Ok : Rep → Event → Prop} {s : Rep}

theorem shortCarry_reachable (h : Reachable cfg (Admitted maxReadSize quota ioBufferSize) Ok s) :
    ShortCarry s := by
  induction h with
  | run env h0 =>
    obtain ⟨op, ct, lv, rsz, rfl⟩ := admitted_fresh h0
    unfold Rep.run
    dsimp only
    split
    · exact shortCarry_terminate (shortCarry_idle rfl)
    · split
      · exact shortCarry_start (shortCarry_idle rfl)
      · exact shortCarry_idle rfl
  | step hr _ hs ih => exact shortCarry_step (disc_reachable hr) ih hs

end

/-! ## What a stopped replicator still owes -/

section

variable {s u t : Rep} {env : Env} {oc : Bool} {st : Int}

theorem tailDue_cancelled (h : s.cancelFlag = true) : tailDue s = 0 :=
  if_neg fun hc => Bool.noConfusion (h.symm.trans hc.1)

theorem tailDue_idle (h : s.storeWrite = false) : tailDue s = 0 :=
  if_neg fun hc => Bool.noConfusion (h.symm.trans hc.2.1)

theorem tailDue_empty (h : s.rdBuf = []) : tailDue s = 0 :=
  if_neg fun hc => hc.2.2 h

theorem tailDue_le : tailDue s ≤ 1 := by
  unfold tailDue
  split <;> omega

theorem winds_self (h : Stopped s) : Winds s s := ⟨h, id, rfl, List.prefix_refl _, le_rfl⟩

theorem Winds.trans (h1 : Winds u s) (h2 : Winds t u) : Winds t s := by
  obtain ⟨-, hc1, ha1, hp1, hl1⟩ := h1
  obtain ⟨ht, hc2, ha2, hp2, hl2⟩ := h2
  exact ⟨ht, fun h => hc2 (hc1 h), ha2.trans ha1, hp1.trans hp2, hl2.trans hl1⟩

/-- A state with no new allocation or write, and nothing owed. -/
theorem Winds.settle (h : Winds u s) (ht : Stopped t) (hc : u.cancelFlag = true → t.cancelFlag = true)
    (ha : t.allocs = u.allocs) (hw : t.writes = u.writes) (hd : tailDue t = 0) : Winds t s := by
  obtain ⟨-, hc', ha', hp, hl⟩ := h
  refine ⟨ht, fun h' => hc (hc' h'), ha.trans ha', hw ▸ hp, ?_⟩
  rw [hw, hd]
  omega

/-- A state that owes nothing after one more write, paid for by what `s` owed. -/
theorem Winds.write (h : Winds u s) (ht : Stopped t) (hc : t.cancelFlag = u.cancelFlag)
    (ha : t.allocs = u.allocs) {w : WriteCall} (hw : t.writes = u.writes ++ [w]) (hd : tailDue t = 0)
    (hpay : u.writes.length + 1 ≤ s.writes.length + tailDue s) : Winds t s := by
  obtain ⟨-, hc', ha', hp, -⟩ := h
  refine ⟨ht, fun h' => hc ▸ hc' h', ha.trans ha', hw ▸ hp.trans (List.prefix_append _ _), ?_⟩
  rw [hw, hd, List.length_append, List.length_singleton]
  omega

theorem winds_terminate (h : Winds u s) : Winds (u.terminate env st) s := by
  unfold Rep.terminate
  split
  · dsimp only
    split <;> exact h
  · exact h

theorem winds_cancelBase (h : Winds u s) : Winds (u.cancelBase env) s := by
  unfold Rep.cancelBase
  dsimp only
  split
  · exact winds_terminate (h.settle (.inl rfl) (fun _ => rfl) rfl rfl (tailDue_cancelled rfl))
  · exact h.settle (.inl rfl) (fun _ => rfl) rfl rfl (tailDue_cancelled rfl)

theorem winds_enqueue {inState : State} (h : Winds u s) : Winds (u.enqueue oc inState) s := by
  obtain ⟨_, -, _, _, _, he⟩ := u.enqueue_frame oc inState
  rw [he]
  exact h

theorem winds_read (h : Winds u s) (hpc : u.pendingCancel = true) (hrs : u.rs = true) :
    Winds (u.read env oc) s := by
  unfold Rep.read Rep.rsRead
  rw [if_pos hrs, if_pos hpc]
  exact h

theorem winds_handleStartDone (h : Winds u s) (hc : u.cancelFlag = true) :
    Winds (u.handleStartDone env oc) s := by
  unfold Rep.handleStartDone
  rw [if_pos (by rw [hc]; rfl)]
  exact winds_terminate h

theorem winds_handleReadDone (h : Winds u s) (hc : u.cancelFlag = true) :
    Winds (u.handleReadDone env oc) s := by
  unfold Rep.handleReadDone
  rw [if_pos hc]
  exact winds_terminate h

theorem winds_handleCompletion {md : Bool} (h : Winds u s) (hpc : u.pendingCancel = true) :
    Winds (u.handleCompletion env oc md) s := by
  unfold Rep.handleCompletion
  rw [if_pos hpc]
  exact h

theorem winds_handleRead (h : Winds u s) (hpc : u.pendingCancel = true) :
    Winds (u.handleRead env oc) s := by
  unfold Rep.handleRead
  split
  · exact winds_handleCompletion h hpc
  · dsimp only
    split
    · exact winds_handleCompletion (h.settle (.inr hpc) id rfl rfl (tailDue_empty rfl)) hpc
    · exact h.settle (.inr hpc) id rfl rfl (tailDue_empty rfl)

theorem winds_doneFinish {cfg : Cfg} {inOffset ps : Int} {buf : Option (List UInt8)} {ok : Bool}
    (h : Winds u s) (hpc : u.pendingCancel = true) :
    Winds (u.doneFinish cfg env oc st inOffset buf ok ps) s := by
  rcases u.doneFinish_cases cfg env oc st inOffset buf ok ps with ⟨_, he⟩ | he | ⟨_, he⟩ <;> rw [he]
  · exact h
  · exact h
  · exact winds_handleCompletion h hpc

theorem winds_doneRead {cfg : Cfg} {inOffset : Int} {b : List UInt8} (h : Winds u s)
    (hpc : u.pendingCancel = true) (hs : u.storeWrite = false) :
    Winds (u.doneRead cfg env oc inOffset b) s := by
  unfold Rep.doneRead Rep.doneChecksums
  dsimp only
  repeat' split
  all_goals first
    | exact winds_doneFinish (h.settle (.inr hpc) id rfl rfl (tailDue_idle hs)) hpc
    | exact winds_handleRead (h.settle (.inr hpc) id rfl rfl (tailDue_idle hs)) hpc

/-- The reader's completions of a replicator with a cancel posted write nothing. -/
theorem winds_completionDone {cfg : Cfg} {inOffset inSize : Int} {buf : Option (List UInt8)}
    (h : Winds u s) (hpc : u.pendingCancel = true)
    (hr : u.readInFlight = true → u.storeWrite = false) :
    Winds (u.completionDone cfg env oc st inOffset inSize buf) s := by
  unfold Rep.completionDone
  by_cases h1 : buf.isSome ∧ (inOffset < 0 ∨ inSize > u.rdNumBytes ∨ u.readInFlight = false)
  · rw [if_pos h1]; exact h
  rw [if_neg h1]
  by_cases h2 : u.pendingClose = true
  · rw [if_pos h2]; split <;> exact h
  rw [if_neg h2]
  by_cases h3 : (!u.readInFlight) = true
  · rw [if_pos h3]; split <;> exact h
  rw [if_neg h3]
  have hs : u.storeWrite = false := hr (by simpa using h3)
  dsimp only
  split
  · exact h
  · split
    · split
      · exact winds_doneRead h hpc hs
      · exact winds_doneFinish h hpc
    · exact winds_doneFinish h hpc

theorem cancelBase_cancelFlag : (u.cancelBase env).cancelFlag = true := by
  unfold Rep.cancelBase Rep.terminate
  dsimp only
  split
  · split
    · split <;> rfl
    · rfl
  · rfl

/-- `HandleCancel` cancels before it fails the claimed transition. -/
theorem winds_handleCancel (h : Winds u s) : Winds (u.handleCancel env oc) s := by
  unfold Rep.handleCancel
  dsimp only
  by_cases h1 : env.shutdownUnref = true ∧ u.pendingClose = true
  · rw [if_pos h1]; exact h
  rw [if_neg h1]
  by_cases h2 : u.queued = true
  · rw [if_pos h2]; exact h
  rw [if_neg h2]
  split
  · exact winds_cancelBase h
  · split
    · exact winds_handleReadDone (winds_cancelBase h) cancelBase_cancelFlag
    · exact winds_handleStartDone (winds_cancelBase h) cancelBase_cancelFlag

theorem winds_handle (h : Winds u s) (hpc : u.pendingCancel = true) : Winds (u.handle env oc) s := by
  unfold Rep.handle
  rw [if_pos hpc]
  exact winds_handleCancel h

theorem winds_cancel (h : Winds u s) : Winds (u.cancel env) s := by
  unfold Rep.cancel Rep.rsCancel
  dsimp only
  split
  · split
    · exact h
    · exact winds_enqueue ⟨.inr rfl, h.2⟩
  · exact winds_cancelBase h

theorem winds_start {cfg : Cfg} (h : Winds u s) (hpc : u.rs = true → u.pendingCancel = true) :
    Winds (u.start cfg env oc) s := by
  unfold Rep.start Rep.rsStart
  split
  · rw [if_pos (hpc ‹_›)]
    exact h
  · exact h

/-- A write of the carried tail, which is shorter than a block, is not split again. -/
theorem winds_readDoneFinish (h : Winds u s) (hs : u.storeWrite = false)
    (hsh : (u.rdBuf.length : Int) ≤ CHECKSUM_BLOCKSIZE)
    (hpay : u.writes.length + 1 ≤ s.writes.length + tailDue s) :
    Winds (u.readDoneFinish env) s := by
  unfold Rep.readDoneFinish
  dsimp only
  split
  · exact winds_terminate h
  · split
    · exact h
    · unfold Rep.alignWrite Rep.writeChunk
      dsimp only
      rw [if_neg (show ¬(u.rdBuf.length : Int) > CHECKSUM_BLOCKSIZE by omega)]
      split
      · exact winds_terminate (h.write h.1 rfl rfl rfl (tailDue_idle hs) hpay)
      · exact h.write h.1 rfl rfl rfl (tailDue_empty rfl) hpay

theorem winds_handleReadDone_tail (h : Winds u s) (hpc : u.pendingCancel = true) (hrs : u.rs = true)
    (hc : u.cancelFlag = false) (hs : u.storeWrite = false)
    (hsh : (u.rdBuf.length : Int) ≤ CHECKSUM_BLOCKSIZE)
    (hpay : u.writes.length + 1 ≤ s.writes.length + tailDue s) :
    Winds (u.handleReadDone env oc) s := by
  unfold Rep.handleReadDone
  rw [if_neg (by rw [hc]; exact Bool.false_ne_true)]
  dsimp only
  split
  · split
    · exact winds_read h hpc hrs
    · exact winds_readDoneFinish h hs hsh hpay
  · split <;> exact winds_readDoneFinish h hs hsh hpay

/-- The write completion of a stopped replicator: with `mCancelFlag` it terminates; with only a
cancel posted it writes the tail it carries, which was owed, or reads, which is ignored. -/
theorem winds_handleWriteDone {n : Int} (h : Disc s) (hsc : ShortCarry s) (hsw : s.storeWrite = true)
    (hst : Stopped s) : Winds (s.handleWriteDone env oc st n) s := by
  have hw : Winds { s with storeWrite := false } s :=
    (winds_self hst).settle hst id rfl rfl (tailDue_idle rfl)
  unfold Rep.handleWriteDone
  dsimp only
  by_cases hc : s.cancelFlag = true
  · rw [if_pos (.inl hc)]
    exact winds_terminate hw
  · have hc : s.cancelFlag = false := Bool.eq_false_iff.mpr hc
    have hpc : s.pendingCancel = true := hst.resolve_left (by rw [hc]; exact Bool.false_ne_true)
    have hrs : s.rs = true := by
      cases hrs : s.rs
      · simp [(mode_direct h.1.1 hrs).2.2.1] at hpc
      · rfl
    split
    · exact winds_terminate hw
    · split
      · rename_i htail
        have hpay : s.writes.length + 1 ≤ s.writes.length + tailDue s := by
          rw [tailDue, if_pos ⟨hc, hsw, htail.2⟩]
        exact winds_handleReadDone_tail hw hpc hrs hc rfl (hsc hsw).le hpay
      · exact winds_read hw hpc hrs

/-- Once `Cancel()` has reached a replicator, a step allocates nothing and writes no more than was
owed. -/
theorem winds_step {cfg : Cfg} {e : Event} {s' : Rep} (h : Disc s) (hsc : ShortCarry s)
    (hst : Stopped s) (hs : step cfg env e s = some s') : Winds s' s := by
  obtain ⟨-, he, rfl⟩ := step_eq_some hs
  have hmo := h.1.1
  have hri := h.2.2.2.2.2.2.1
  have hpcs (hrs : s.rs = true) : s.pendingCancel = true :=
    hst.elim (fun hc => (mode_recovery hmo hrs).2.2.1 hc) id
  have hcfd (hrs : s.rs = false) : s.cancelFlag = true :=
    hst.resolve_right (by simp [(mode_direct hmo hrs).2.2.1])
  have hdirect (hp : s.peerOp ≠ none) : s.cancelFlag = true := hcfd (ready_peerDone h hp).1
  have hself := winds_self hst
  cases e with
  | handleInline =>
    have hpost : s.posted = true := by simp [Rep.posted, show s.runNow = true from he]
    exact winds_handle hself (hpcs (rs_of_posted h hpost))
  | handleQueued =>
    simp only [Event.enabled, Bool.and_eq_true, Bool.not_eq_true'] at he
    exact winds_handle hself (hpcs (rs_of_posted h (by simp [Rep.posted, he.2])))
  | granted =>
    show Winds ({ s with waiting := false }.start cfg env false) s
    exact winds_start hself hpcs
  | metadataDone =>
    simp only [Event.enabled, Bool.and_eq_true, beq_iff_eq] at he
    exact winds_handleStartDone hself (hdirect (by simp [he.2]))
  | readDone =>
    simp only [Event.enabled, Bool.and_eq_true, beq_iff_eq] at he
    have hc := hdirect (by simp [he.2])
    exact winds_handleReadDone (hself.settle hst id rfl rfl (tailDue_cancelled hc)) hc
  | writeDone =>
    simp only [Event.enabled, Bool.and_eq_true] at he
    exact winds_handleWriteDone h hsc he.2 hst
  | changeVersDone => exact hself
  | cancel => exact winds_cancel hself
  | readerDone =>
    simp only [Event.enabled, Bool.and_eq_true, decide_eq_true_eq] at he
    exact winds_completionDone hself (hpcs (rs_of_reader h (.inr (.inr he.2))))
      fun h' => (hri h').1.2.2.1
  | closeDone =>
    simp only [Event.enabled, Bool.and_eq_true] at he
    exact winds_completionDone hself (hpcs (rs_of_reader h (.inr (.inl he.2))))
      fun h' => (hri h').1.2.2.1
  | readerNote =>
    simp only [Event.enabled, Bool.and_eq_true, beq_iff_eq, Bool.not_eq_true'] at he
    exact winds_completionDone hself (hpcs (rs_of_reader h (.inl he.1.1.2)))
      fun h' => (hri h').1.2.2.1

end

/-! ## Over whole runs -/

section

variable {cfg : Cfg} {maxReadSize quota ioBufferSize : Int} {Ok : Rep → Event → Prop} {s s' : Rep}

theorem winds_steps (h : Reachable cfg (Admitted maxReadSize quota ioBufferSize) Ok s)
    (hst : Stopped s) (hs : Steps cfg Ok s s') : Winds s' s := by
  have := hs.preserve
    (P := fun t => Reachable cfg (Admitted maxReadSize quota ioBufferSize) Ok t ∧ Winds t s)
    (fun ⟨hr, hw⟩ hok hst' =>
      ⟨.step hr hok hst', hw.trans (winds_step (disc_reachable hr) (shortCarry_reachable hr) hw.1 hst')⟩)
    ⟨h, winds_self hst⟩
  exact this.2

end

end QfsReplicator
