import QfsReplicator.Lifecycle.Freeze

/-! # After the copy

`Terminate` is the one place `ChangeChunkVers` starts (`versStarts`), and only for a finished,
uncancelled copy; it leaves the version change outstanding or answers the op. What follows is
quiet: a replicator whose version change is outstanding, or whose op is answered, has no
buffer wait, peer op, store write or reader `Read` left (`Drained`), so the only events it still
sees are the version change's completion, `Cancel()`, a posted `HandleCancel` with nothing
claimed, and reader completions that carry no buffer. None of them writes, allocates or starts
`ChangeChunkVers` (`drained_step`).

Hence `ChangeChunkVers` starts at most once, in a step that leaves the replicator done and not
cancelled (`changeChunkVers_at_most_once`, `changeChunkVers_started`), and once the copy is
settled nothing is written or allocated again (`settled_no_chunk_calls`). Every answer given
before `ChangeChunkVers` starts is a failure, so status 0 reaches the op only after the copy is
done and the version change started (`success_only_after_changeChunkVers`).

By the handoff discipline a replicator has at most one operation outstanding, and none once
its op is answered (`one_op_outstanding`). `HandleReplicationDone` clamps the status to 0 or an
error and reports version `-1` with an error (`answers_well_formed`); it bumps the failure
counter together with the answer, and each step answers at most once (`answers_step`): a
replicator counts nothing before it answers, and then at most one failure or cancel, of its
op's kind (`failures_counted_once`). Once `mCancelFlag` is set with no version change
outstanding, the replicator stays cancelled and starts no version change, and every handler
that can end the copy checks the flag first, so the op is answered at most once more, with
`-ECANCELED` and version `-1` (`cancel_answers_ecanceled`).
-/

namespace QfsReplicator

/-- Nothing is outstanding but the version change, and a posted `Handle()` only unwinds a cancel
with nothing claimed. -/
def Drained (s : Rep) : Prop :=
  s.waiting = false ∧ s.peerOp = none ∧ s.storeWrite = false ∧ s.readInFlight = false ∧
    (s.posted = true → s.pendingCancel = true ∧ s.state = .kNone)

/-- `t` has made no call to the chunk manager since `s`, has not answered the op again, and
holds the version change and `mDone` of `s`; it has released no file `s` did not hold. -/
def Unchanged (t s : Rep) : Prop :=
  t.writes = s.writes ∧ t.allocs = s.allocs ∧ t.versStarts = s.versStarts ∧
    t.responses = s.responses ∧ t.owner = s.owner ∧ t.changeVers = s.changeVers ∧
    t.done = s.done ∧ (s.fileHandle = false → t.releases = s.releases)

/-- The copy is over: `ChangeChunkVers` is outstanding or the op is answered. -/
def Settled (s : Rep) : Prop := s.changeVers = true ∨ s.owner = false

/-- An answer as `SubmitOpResponse` hands it on: status 0 or a negative error, and version `-1`
with an error. -/
def AnswerForm (p : Int × Int) : Prop := p.1 ≤ 0 ∧ (p.1 < 0 → p.2 = -1)

/-- `t` has the op of `s`, is cancelled if `s` is, and has answered at most once since `s`: with
an answer `ok` admits, counted in the failure counter of the op's kind when it is a failure or
`HandleReplicationDone` found the replicator cancelled (`cf`), which it then answers with
version `-1`. -/
def Answers (ok : Int × Int → Prop) (t s : Rep) : Prop :=
  t.op = s.op ∧ (s.cancelFlag = true → t.cancelFlag = true) ∧
    ((t.responses = s.responses ∧ t.ctrs = s.ctrs) ∨
      ∃ p cf, t.responses = s.responses ++ [p] ∧ ok p ∧
        (cf = true → t.cancelFlag = true ∧ p.2 = -1) ∧
        t.ctrs = if p.1 < 0 ∨ cf = true then s.ctrs.bumpFailed s.op.locationValid cf else s.ctrs)

/-- A replicator's failure counters: none before it answers; after its answer `p`, the error or
the cancel counter of the op's kind when `p` is a failure or `HandleReplicationDone` found the
replicator cancelled (`cf`), which it then answered with version `-1`. -/
def Counted (s : Rep) : Prop :=
  (s.responses = [] ∧ s.ctrs = {}) ∨
    ∃ p cf, s.responses = [p] ∧ (cf = true → s.cancelFlag = true ∧ p.2 = -1) ∧
      s.ctrs = if p.1 < 0 ∨ cf = true then ({} : Counters).bumpFailed s.op.locationValid cf else {}

/-- How many operations a replicator has outstanding: a buffer wait, a peer op, a store write,
a version change, a reader `Read`, and a posted `Handle()` other than a cancel. -/
def outstanding (s : Rep) : Nat :=
  s.waiting.toNat + s.peerOp.isSome.toNat + s.storeWrite.toNat + s.changeVers.toNat +
    s.readInFlight.toNat + (s.posted && !s.pendingCancel).toNat

/-- `t` has started no `ChangeChunkVers` since `s`, raised no version change and answered only
with a failure and version `-1`; or it started one, and was then done and not cancelled. -/
def VersOnce (t s : Rep) : Prop :=
  (t.versStarts = s.versStarts ∧ (t.changeVers = true → s.changeVers = true) ∧
      Answers (fun p => p.1 < 0 ∧ p.2 = -1) t s) ∨
    (t.versStarts = s.versStarts + 1 ∧ t.done = true ∧ t.cancelFlag = false ∧
      Answers AnswerForm t s)

section

variable {s : Rep} {env : Env} {oc : Bool} {st : Int}

/-! ## A settled replicator is idle -/

theorem unchanged_self : Unchanged s s := ⟨rfl, rfl, rfl, rfl, rfl, rfl, rfl, fun _ => rfl⟩

theorem unchanged_cancelBase (hw : s.waiting = false) : Unchanged (s.cancelBase env) s := by
  rw [cancelBase_of_waiting_false hw]
  exact ⟨rfl, rfl, rfl, rfl, rfl, rfl, rfl, fun h => by simp [h]⟩

/-- The recovery replicator's `Cancel()` only posts the cancel. -/
theorem unchanged_rsCancel : Unchanged (s.rsCancel oc) s := by
  unfold Rep.rsCancel
  split
  · exact unchanged_self
  · unfold Rep.enqueue
    rw [if_pos rfl, if_neg (by simp)]
    unfold Rep.post
    split <;> exact unchanged_self (s := s)

theorem unchanged_cancel (hw : s.waiting = false) : Unchanged (s.cancel env) s := by
  unfold Rep.cancel
  dsimp only
  split
  · exact unchanged_rsCancel (s := { s with cancelCalls := s.cancelCalls + 1 })
  · exact unchanged_cancelBase (s := { s with cancelCalls := s.cancelCalls + 1 }) hw

/-- `HandleCancel` with nothing claimed detaches the reader and cancels, and fails nothing. -/
theorem unchanged_handle (hpc : s.pendingCancel = true) (hw : s.waiting = false)
    (hk : s.state = .kNone) : Unchanged (s.handle env oc) s := by
  unfold Rep.handle Rep.handleCancel
  rw [if_pos hpc]
  dsimp only
  by_cases h1 : env.shutdownUnref = true ∧ s.pendingClose = true
  · rw [if_pos h1]; exact unchanged_self (s := s)
  rw [if_neg h1]
  by_cases h2 : s.queued = true
  · rw [if_pos h2]; exact unchanged_self (s := s)
  rw [if_neg h2, cancelBase_of_waiting_false
    (s := { s with readerRegistered := false, readerReads := 0, readerClose := false }) hw]
  dsimp only
  rw [if_pos (.inr hk)]
  exact ⟨rfl, rfl, rfl, rfl, rfl, rfl, rfl, fun h => by simp [h]⟩

/-- A reader `Done` without a buffer and with no `Read` in flight only notes its status. -/
theorem unchanged_completionDone {cfg : Cfg} {off sz : Int} (hr : s.readInFlight = false) :
    Unchanged (s.completionDone cfg env oc st off sz none) s := by
  unfold Rep.completionDone
  rw [if_neg (by simp)]
  split
  · split <;> exact unchanged_self (s := s)
  · rw [if_pos (by simp [hr])]
    split <;> exact unchanged_self (s := s)

theorem drained_of_settled (h : Disc s) (hv : Settled s) : Drained s := by
  rcases hv with hv | ho
  · obtain ⟨⟨hw, hp, hsw, -, hr, hpc⟩, hk⟩ := h.2.2.2.2.2.1 hv
    exact ⟨hw, hp, hsw, hr, fun hpo => ⟨hpc hpo, hk⟩⟩
  · obtain ⟨⟨hw, hp, hsw, -, hr, hpc⟩, hk⟩ := h.2.1 ho
    exact ⟨hw, hp, hsw, hr, fun hpo => ⟨hpc hpo, hk (.inl hpo)⟩⟩

/-- What a step can do to an idle replicator: complete the version change, or leave the chunk
manager's calls and the op's answer alone. -/
theorem drained_step {cfg : Cfg} {e : Event} {s' : Rep} (h : Disc s) (hi : Drained s)
    (hs : step cfg env e s = some s') :
    (∃ st, s' = { s with changeVers := false }.handleReplicationDone st) ∨ Unchanged s' s := by
  obtain ⟨-, he, rfl⟩ := step_eq_some hs
  obtain ⟨hw, hp, hsw, hr, hpk⟩ := hi
  cases e with
  | handleInline =>
    obtain ⟨hpc, hk⟩ := hpk (by simp [Rep.posted, show s.runNow = true from he])
    exact .inr (unchanged_handle (s := { s with runNow := false }) hpc hw hk)
  | handleQueued =>
    simp only [Event.enabled, Bool.and_eq_true] at he
    obtain ⟨hpc, hk⟩ := hpk (by simp [Rep.posted, he.2])
    exact .inr (unchanged_handle (s := { s with queued := false }) hpc hw hk)
  | granted => simp [Event.enabled, hw] at he
  | metadataDone => simp [Event.enabled, hp] at he
  | readDone => simp [Event.enabled, hp] at he
  | writeDone => simp [Event.enabled, hsw] at he
  | changeVersDone st => exact .inl ⟨st, rfl⟩
  | cancel => exact .inr (unchanged_cancel hw)
  | readerDone =>
    simp only [Event.enabled, Bool.and_eq_true, decide_eq_true_eq] at he
    simp [h.1.2.1.2.1 he.2] at hr
  | closeDone => exact .inr (unchanged_completionDone (s := { s with readerClose := false }) hr)
  | readerNote => exact .inr (unchanged_completionDone hr)

/-- A settled replicator stays settled, and a step writes nothing, allocates nothing and starts
no `ChangeChunkVers`. -/
theorem settled_step {cfg : Cfg} {e : Event} {s' : Rep} (h : Disc s) (hv : Settled s)
    (hs : step cfg env e s = some s') :
    Settled s' ∧ s'.writes = s.writes ∧ s'.allocs = s.allocs ∧ s'.versStarts = s.versStarts ∧
      s'.done = s.done := by
  rcases drained_step h (drained_of_settled h hv) hs with ⟨st, rfl⟩ | ⟨hw, ha, hn, -, ho, hcv, hd, -⟩
  · exact ⟨.inr rfl, rfl, rfl, rfl, rfl⟩
  · exact ⟨by rw [Settled, hcv, ho]; exact hv, hw, ha, hn, hd⟩

/-! ## `ChangeChunkVers` starts once -/

theorem vers_self : VersOnce s s := .inl ⟨rfl, id, rfl, id, .inl ⟨rfl, rfl⟩⟩

/-- `HandleReplicationDone` reports status 0 or a negative error, and version `-1` with an
error. -/
theorem handleReplicationDone_form :
    AnswerForm ((s.handleReplicationDone st).opStatus, (s.handleReplicationDone st).opChunkVersion) := by
  by_cases hs : 0 ≤ st
  · simp [AnswerForm, Rep.handleReplicationDone, hs]
  · simp only [AnswerForm, Rep.handleReplicationDone, hs, if_false]
    exact ⟨by omega, fun _ => by simp [hs]⟩

theorem handleReplicationDone_failed (h : st < 0) :
    (s.handleReplicationDone st).opStatus < 0 ∧ (s.handleReplicationDone st).opChunkVersion = -1 := by
  simp [Rep.handleReplicationDone, not_le.mpr h, h]

/-- `HandleReplicationDone` answers once, and counts a failure or a cancel it finds. -/
theorem answers_handleReplicationDone (ok : Int × Int → Prop)
    (hok : ok ((s.handleReplicationDone st).opStatus, (s.handleReplicationDone st).opChunkVersion)) :
    Answers ok (s.handleReplicationDone st) s :=
  ⟨rfl, id, .inr ⟨_, s.cancelFlag, rfl, hok,
    fun h => ⟨h, by simp [Rep.handleReplicationDone, Rep.touchOwner, h]⟩, rfl⟩⟩

theorem Answers.weaken {ok ok' : Int × Int → Prop} {t : Rep} (h : Answers ok t s)
    (hw : ∀ p, ok p → ok' p) : Answers ok' t s := by
  obtain ⟨ho, hc, hr | ⟨p, cf, hr, hp, hcf, hct⟩⟩ := h
  · exact ⟨ho, hc, .inl hr⟩
  · exact ⟨ho, hc, .inr ⟨p, cf, hr, hw _ hp, hcf, hct⟩⟩

/-- What a handler does after setting `mCancelFlag` (from `u`) it does from `s`. -/
theorem Answers.of_cancelled {ok : Int × Int → Prop} {t u : Rep} (h : Answers ok t u)
    (hu : u.cancelFlag = true) (hr : u.responses = s.responses) (hct : u.ctrs = s.ctrs)
    (ho : u.op = s.op) : Answers ok t s := by
  obtain ⟨ho', hm, ha⟩ := h
  rw [hr, hct, ho] at ha
  exact ⟨ho'.trans ho, fun _ => hm hu, ha⟩

theorem VersOnce.of_cancelled {t u : Rep} (h : VersOnce t u) (hu : u.cancelFlag = true)
    (hv : u.versStarts = s.versStarts) (hc : u.changeVers = s.changeVers)
    (hr : u.responses = s.responses) (hct : u.ctrs = s.ctrs) (ho : u.op = s.op) : VersOnce t s := by
  rcases h with ⟨h1, h2, ha⟩ | ⟨h1, h2, h3, ha⟩
  · exact .inl ⟨h1.trans hv, hc ▸ h2, ha.of_cancelled hu hr hct ho⟩
  · exact .inr ⟨hv ▸ h1, h2, h3, ha.of_cancelled hu hr hct ho⟩

theorem VersOnce.answers {t : Rep} (h : VersOnce t s) : Answers AnswerForm t s := by
  rcases h with ⟨-, -, ha⟩ | ⟨-, -, -, ha⟩
  · exact ha.weaken fun _ hp => ⟨hp.1.le, fun _ => hp.2⟩
  · exact ha

/-- `Terminate` starts `ChangeChunkVers` only for a done, uncancelled replicator, and otherwise
answers with a negative status. -/
theorem vers_terminate : VersOnce (s.terminate env st) s := by
  unfold Rep.terminate
  split
  · rename_i hd
    simp only [Bool.and_eq_true, Bool.not_eq_true'] at hd
    dsimp only
    split
    · exact .inr ⟨rfl, hd.1, hd.2, rfl, id, .inl ⟨rfl, rfl⟩⟩
    · exact .inr ⟨rfl, hd.1, hd.2, answers_handleReplicationDone AnswerForm
        (s := { s with versStarts := s.versStarts + 1 }) handleReplicationDone_form⟩
  · exact .inl ⟨rfl, id, answers_handleReplicationDone _
      (handleReplicationDone_failed (by split_ifs <;> omega))⟩

theorem vers_cancelBase : VersOnce (s.cancelBase env) s := by
  unfold Rep.cancelBase
  dsimp only
  split
  · exact vers_terminate.of_cancelled rfl rfl rfl rfl rfl rfl
  · exact vers_self.of_cancelled rfl rfl rfl rfl rfl rfl

theorem vers_directRead : VersOnce (s.directRead env) s := by
  unfold Rep.directRead
  split
  · exact vers_terminate
  · exact vers_self (s := s)

theorem vers_enqueue {inState : State} : VersOnce (s.enqueue oc inState) s := by
  obtain ⟨_, -, _, _, _, h⟩ := s.enqueue_frame oc inState
  rw [h]
  exact vers_self (s := s)

theorem vers_read : VersOnce (s.read env oc) s := by
  unfold Rep.read Rep.rsRead
  split
  · split
    · exact vers_self (s := s)
    · exact vers_enqueue
  · exact vers_directRead

theorem vers_handleStartDone : VersOnce (s.handleStartDone env oc) s := by
  unfold Rep.handleStartDone
  split
  · exact vers_terminate
  · dsimp only
    split
    · exact vers_terminate
    · split
      · exact vers_terminate
      · split
        · exact vers_self (s := s)
        · exact vers_read

theorem vers_writeChunk : VersOnce (s.writeChunk env) s := by
  unfold Rep.writeChunk
  dsimp only
  split
  · exact vers_terminate
  · exact vers_self (s := s)

theorem vers_alignWrite : VersOnce (s.alignWrite.writeChunk env) s := by
  unfold Rep.alignWrite
  dsimp only
  split
  · split <;> exact vers_writeChunk
  · exact vers_writeChunk

theorem vers_readDoneFinish : VersOnce (s.readDoneFinish env) s := by
  unfold Rep.readDoneFinish
  dsimp only
  split
  · exact vers_terminate
  · split
    · exact vers_self (s := s)
    · exact vers_alignWrite

theorem vers_handleReadDone : VersOnce (s.handleReadDone env oc) s := by
  unfold Rep.handleReadDone
  split
  · exact vers_terminate
  · dsimp only
    split
    · split
      · exact vers_read
      · exact vers_readDoneFinish
    · split <;> exact vers_readDoneFinish

theorem vers_handleWriteDone {n : Int} : VersOnce (s.handleWriteDone env oc st n) s := by
  unfold Rep.handleWriteDone
  dsimp only
  split
  · exact vers_terminate
  · split
    · exact vers_handleReadDone
    · exact vers_read

theorem vers_handleCompletion {md : Bool} : VersOnce (s.handleCompletion env oc md) s := by
  unfold Rep.handleCompletion
  dsimp only
  split
  · exact vers_self (s := s)
  · split
    · exact vers_handleStartDone
    · exact vers_handleReadDone

theorem vers_handleStart : VersOnce (s.handleStart env oc) s := by
  rcases s.handleStart_cases env oc with h | ⟨_, _, h⟩ <;> rw [h]
  · exact vers_self (s := s)
  · exact vers_handleCompletion

theorem vers_handleRead : VersOnce (s.handleRead env oc) s := by
  unfold Rep.handleRead
  split
  · exact vers_handleCompletion
  · dsimp only
    split
    · exact vers_handleCompletion
    · exact vers_self (s := s)

theorem vers_doneFinish {cfg : Cfg} {inOffset ps : Int} {buf : Option (List UInt8)} {ok : Bool} :
    VersOnce (s.doneFinish cfg env oc st inOffset buf ok ps) s := by
  rcases s.doneFinish_cases cfg env oc st inOffset buf ok ps with ⟨_, h⟩ | h | ⟨_, h⟩ <;> rw [h]
  · exact vers_self (s := s)
  · exact vers_self (s := s)
  · exact vers_handleCompletion

theorem vers_doneRead {cfg : Cfg} {inOffset : Int} {b : List UInt8} :
    VersOnce (s.doneRead cfg env oc inOffset b) s := by
  unfold Rep.doneRead Rep.doneChecksums
  dsimp only
  repeat' split
  all_goals first | exact vers_doneFinish | exact vers_handleRead

theorem vers_completionDone {cfg : Cfg} {inOffset inSize : Int} {buf : Option (List UInt8)} :
    VersOnce (s.completionDone cfg env oc st inOffset inSize buf) s := by
  unfold Rep.completionDone
  by_cases h1 : buf.isSome ∧ (inOffset < 0 ∨ inSize > s.rdNumBytes ∨ s.readInFlight = false)
  · rw [if_pos h1]; exact vers_self (s := s)
  rw [if_neg h1]
  by_cases h2 : s.pendingClose = true
  · rw [if_pos h2]; split <;> exact vers_self (s := s)
  rw [if_neg h2]
  by_cases h3 : (!s.readInFlight) = true
  · rw [if_pos h3]; split <;> exact vers_self (s := s)
  rw [if_neg h3]
  dsimp only
  split
  · exact vers_self (s := s)
  · split
    · split
      · exact vers_doneRead
      · exact vers_doneFinish
    · exact vers_doneFinish

theorem vers_handle : VersOnce (s.handle env oc) s := by
  unfold Rep.handle Rep.handleCancel
  split
  · dsimp only
    by_cases h1 : env.shutdownUnref = true ∧ s.pendingClose = true
    · rw [if_pos h1]; exact vers_self (s := s)
    rw [if_neg h1]
    by_cases h2 : s.queued = true
    · rw [if_pos h2]; exact vers_self (s := s)
    rw [if_neg h2]
    by_cases hw : s.waiting = true
    · rw [if_pos (.inl hw)]
      exact vers_cancelBase
    rw [cancelBase_of_waiting_false
      (s := { s with readerRegistered := false, readerReads := 0, readerClose := false })
      (by simpa using hw)]
    dsimp only
    split
    · exact vers_self.of_cancelled rfl rfl rfl rfl rfl rfl
    · split
      · exact vers_handleReadDone.of_cancelled rfl rfl rfl rfl rfl rfl
      · exact vers_handleStartDone.of_cancelled rfl rfl rfl rfl rfl rfl
  · split
    · exact vers_handleStart
    · exact vers_handleRead
    · exact vers_self (s := s)

theorem vers_cancel : VersOnce (s.cancel env) s := by
  unfold Rep.cancel Rep.rsCancel
  dsimp only
  split
  · split
    · exact vers_self (s := s)
    · exact vers_enqueue
  · exact vers_cancelBase

theorem vers_start {cfg : Cfg} : VersOnce (s.start cfg env oc) s := by
  unfold Rep.start Rep.rsStart
  split
  · split
    · exact vers_self (s := s)
    · dsimp only
      split
      · exact vers_handleCompletion
      · exact vers_enqueue
  · exact vers_self (s := s)

theorem vers_run {cfg : Cfg} : VersOnce (s.run cfg env) s := by
  unfold Rep.run
  dsimp only
  split
  · exact vers_terminate
  · split
    · exact vers_start
    · exact vers_self (s := s)

/-- A step starts at most one `ChangeChunkVers`, and leaves the replicator done and not
cancelled if it does; otherwise it answers the op only with a failure, unless it is the
completion of an outstanding version change. -/
theorem vers_step {cfg : Cfg} {e : Event} {s' : Rep} (hs : step cfg env e s = some s') :
    VersOnce s' s ∨
      s.changeVers = true ∧ ∃ st, s' = { s with changeVers := false }.handleReplicationDone st := by
  obtain ⟨-, he, rfl⟩ := step_eq_some hs
  cases e with
  | handleInline => exact .inl vers_handle
  | handleQueued => exact .inl vers_handle
  | granted => exact .inl vers_start
  | metadataDone => exact .inl vers_handleStartDone
  | readDone => exact .inl vers_handleReadDone
  | writeDone => exact .inl vers_handleWriteDone
  | changeVersDone st =>
    simp only [Event.enabled, Bool.and_eq_true] at he
    exact .inr ⟨he.2, st, rfl⟩
  | cancel => exact .inl vers_cancel
  | readerDone => exact .inl vers_completionDone
  | closeDone => exact .inl vers_completionDone
  | readerNote => exact .inl vers_completionDone

theorem vers_step_of_idle {cfg : Cfg} {e : Event} {s' : Rep} (hc : s.changeVers = false)
    (hs : step cfg env e s = some s') : VersOnce s' s :=
  (vers_step hs).resolve_right fun h => Bool.noConfusion (hc.symm.trans h.1)

/-- Every step keeps the op and a cancel, and answers at most once, in form, counting the
answer. -/
theorem answers_step {cfg : Cfg} {e : Event} {s' : Rep} (hs : step cfg env e s = some s') :
    Answers AnswerForm s' s := by
  rcases vers_step hs with h | ⟨-, st, rfl⟩
  · exact h.answers
  · exact answers_handleReplicationDone AnswerForm (s := { s with changeVers := false })
      handleReplicationDone_form

end

/-! ## A cancelled replicator answers `-ECANCELED`

With `mCancelFlag` set, `Terminate` starts no version change, and every handler that could end
the copy checks the flag first and terminates with `ECANCELED`; so whatever a cancelled
replicator answers is `-ECANCELED` with version `-1`, until a version change started before the
cancel completes. -/

/-- The answer to a cancelled op. -/
def CancelAnswer (p : Int × Int) : Prop := p = (-ECANCELED, -1)

section

variable {s : Rep} {env : Env} {oc : Bool} {st : Int}

theorem answers_self {ok : Int × Int → Prop} : Answers ok s s := ⟨rfl, id, .inl ⟨rfl, rfl⟩⟩

theorem ecanceled_terminate (hc : s.cancelFlag = true) :
    Answers CancelAnswer (s.terminate env ECANCELED) s := by
  unfold Rep.terminate
  rw [if_neg (by simp [hc])]
  exact answers_handleReplicationDone _
    (by simp [CancelAnswer, Rep.handleReplicationDone, Rep.touchOwner, hc, ECANCELED])

theorem ecanceled_cancelBase : Answers CancelAnswer (s.cancelBase env) s := by
  unfold Rep.cancelBase
  dsimp only
  split
  · exact (ecanceled_terminate rfl).of_cancelled rfl rfl rfl rfl
  · exact answers_self.of_cancelled rfl rfl rfl rfl

theorem answers_enqueue {ok : Int × Int → Prop} {inState : State} :
    Answers ok (s.enqueue oc inState) s := by
  obtain ⟨_, -, _, _, _, h⟩ := s.enqueue_frame oc inState
  rw [h]
  exact answers_self (s := s)

theorem ecanceled_handleStartDone (hc : s.cancelFlag = true) :
    Answers CancelAnswer (s.handleStartDone env oc) s := by
  unfold Rep.handleStartDone
  rw [if_pos (by simp [hc]), if_pos hc]
  exact ecanceled_terminate hc

theorem ecanceled_handleReadDone (hc : s.cancelFlag = true) :
    Answers CancelAnswer (s.handleReadDone env oc) s := by
  unfold Rep.handleReadDone
  rw [if_pos hc]
  exact ecanceled_terminate hc

theorem ecanceled_handleWriteDone {n : Int} (hc : s.cancelFlag = true) :
    Answers CancelAnswer (s.handleWriteDone env oc st n) s := by
  unfold Rep.handleWriteDone
  dsimp only
  rw [if_pos (.inl hc), if_pos hc]
  exact ecanceled_terminate hc

theorem ecanceled_handleCompletion {md : Bool} (hc : s.cancelFlag = true) :
    Answers CancelAnswer (s.handleCompletion env oc md) s := by
  unfold Rep.handleCompletion
  dsimp only
  split
  · exact answers_self (s := s)
  · split
    · exact ecanceled_handleStartDone hc
    · exact ecanceled_handleReadDone hc

theorem ecanceled_handleRead (hc : s.cancelFlag = true) :
    Answers CancelAnswer (s.handleRead env oc) s := by
  unfold Rep.handleRead
  split
  · exact ecanceled_handleCompletion hc
  · dsimp only
    split
    · exact ecanceled_handleCompletion hc
    · exact answers_self (s := s)

theorem ecanceled_doneFinish {cfg : Cfg} {inOffset ps : Int} {buf : Option (List UInt8)}
    {ok : Bool} (hc : s.cancelFlag = true) :
    Answers CancelAnswer (s.doneFinish cfg env oc st inOffset buf ok ps) s := by
  rcases s.doneFinish_cases cfg env oc st inOffset buf ok ps with ⟨_, h⟩ | h | ⟨_, h⟩ <;> rw [h]
  · exact answers_self (s := s)
  · exact answers_self
  · exact ecanceled_handleCompletion hc

theorem ecanceled_completionDone {cfg : Cfg} {inOffset inSize : Int} {buf : Option (List UInt8)}
    (hc : s.cancelFlag = true) :
    Answers CancelAnswer (s.completionDone cfg env oc st inOffset inSize buf) s := by
  unfold Rep.completionDone
  by_cases h1 : buf.isSome ∧ (inOffset < 0 ∨ inSize > s.rdNumBytes ∨ s.readInFlight = false)
  · rw [if_pos h1]; exact answers_self (s := s)
  rw [if_neg h1]
  by_cases h2 : s.pendingClose = true
  · rw [if_pos h2]; split <;> exact answers_self (s := s)
  rw [if_neg h2]
  by_cases h3 : (!s.readInFlight) = true
  · rw [if_pos h3]; split <;> exact answers_self (s := s)
  rw [if_neg h3]
  dsimp only
  split
  · exact answers_self (s := s)
  · split
    · split
      · unfold Rep.doneRead Rep.doneChecksums
        dsimp only
        repeat' split
        all_goals first | exact ecanceled_doneFinish hc | exact ecanceled_handleRead hc
      · exact ecanceled_doneFinish hc
    · exact ecanceled_doneFinish hc

theorem ecanceled_handle (hc : s.cancelFlag = true) : Answers CancelAnswer (s.handle env oc) s := by
  unfold Rep.handle Rep.handleCancel
  split
  · dsimp only
    by_cases h1 : env.shutdownUnref = true ∧ s.pendingClose = true
    · rw [if_pos h1]; exact answers_self (s := s)
    rw [if_neg h1]
    by_cases h2 : s.queued = true
    · rw [if_pos h2]; exact answers_self (s := s)
    rw [if_neg h2]
    by_cases hw : s.waiting = true
    · rw [if_pos (.inl hw)]
      exact ecanceled_cancelBase
    rw [cancelBase_of_waiting_false
      (s := { s with readerRegistered := false, readerReads := 0, readerClose := false })
      (by simpa using hw)]
    dsimp only
    split
    · exact answers_self.of_cancelled rfl rfl rfl rfl
    · split
      · exact (ecanceled_handleReadDone rfl).of_cancelled rfl rfl rfl rfl
      · exact (ecanceled_handleStartDone rfl).of_cancelled rfl rfl rfl rfl
  · split
    · rcases s.handleStart_cases env oc with h | ⟨_, _, h⟩ <;> rw [h]
      · exact answers_self (s := s)
      · exact ecanceled_handleCompletion hc
    · exact ecanceled_handleRead hc
    · exact answers_self (s := s)

theorem ecanceled_cancel : Answers CancelAnswer (s.cancel env) s := by
  unfold Rep.cancel Rep.rsCancel
  dsimp only
  split
  · split
    · exact answers_self (s := s)
    · exact answers_enqueue
  · exact ecanceled_cancelBase

theorem ecanceled_start {cfg : Cfg} (hc : s.cancelFlag = true) :
    Answers CancelAnswer (s.start cfg env oc) s := by
  unfold Rep.start Rep.rsStart
  split
  · split
    · exact answers_self (s := s)
    · dsimp only
      split
      · exact ecanceled_handleCompletion hc
      · exact answers_enqueue
  · exact answers_self (s := s)

/-- A step of a cancelled replicator with no version change outstanding answers at most once,
with `-ECANCELED` and version `-1`. -/
theorem ecanceled_step {cfg : Cfg} {e : Event} {s' : Rep} (hc : s.cancelFlag = true)
    (hv : s.changeVers = false) (hs : step cfg env e s = some s') : Answers CancelAnswer s' s := by
  obtain ⟨-, he, rfl⟩ := step_eq_some hs
  cases e with
  | handleInline => exact ecanceled_handle hc
  | handleQueued => exact ecanceled_handle hc
  | granted => exact ecanceled_start hc
  | metadataDone => exact ecanceled_handleStartDone hc
  | readDone => exact ecanceled_handleReadDone hc
  | writeDone => exact ecanceled_handleWriteDone hc
  | changeVersDone => simp [Event.enabled, hv] at he
  | cancel => exact ecanceled_cancel
  | readerDone => exact ecanceled_completionDone hc
  | closeDone => exact ecanceled_completionDone hc
  | readerNote => exact ecanceled_completionDone hc

/-- Such a step keeps the replicator cancelled, with no version change outstanding and none
started. -/
theorem ecanceled_idle_step {cfg : Cfg} {e : Event} {s' : Rep} (hc : s.cancelFlag = true)
    (hv : s.changeVers = false) (hs : step cfg env e s = some s') :
    s'.cancelFlag = true ∧ s'.changeVers = false ∧ s'.versStarts = s.versStarts := by
  have hm := (ecanceled_step hc hv hs).2.1 hc
  rcases vers_step_of_idle hv hs with ⟨hn, hcv, -⟩ | ⟨-, -, hcf, -⟩
  · exact ⟨hm, Bool.eq_false_iff.mpr fun h => absurd (hcv h) (by simp [hv]), hn⟩
  · simp [hcf] at hm

end

/-! ## The failure counters -/

section

variable {s t : Rep}

theorem responses_length_le (h : Disc s) : s.responses.length ≤ 1 := by
  have := h.1.2.2.1.2.2.2.1
  split at this <;> omega

/-- A step that keeps the op and a cancel and leaves at most one answer keeps the counters as
`Counted` has them. -/
theorem Counted.answer {ok : Int × Int → Prop} (hs : Counted s) (h : Answers ok t s)
    (hl : t.responses.length ≤ 1) : Counted t := by
  obtain ⟨ho, hm, ⟨hr, hc⟩ | ⟨q, cf, hr, -, hcf, hc⟩⟩ := h
  · rcases hs with ⟨h1, h2⟩ | ⟨p, cf, h1, hcf, h2⟩
    · exact .inl ⟨hr.trans h1, hc.trans h2⟩
    · exact .inr ⟨p, cf, hr.trans h1, fun h => ⟨hm (hcf h).1, (hcf h).2⟩, by rw [hc, h2, ho]⟩
  · rcases hs with ⟨h1, h2⟩ | ⟨p, -, h1, -⟩
    · exact .inr ⟨q, cf, by rw [hr, h1]; rfl, hcf, by rw [hc, h2, ho]⟩
    · rw [hr, h1] at hl
      simp at hl

end

/-! ## Over whole runs -/

section

variable {cfg : Cfg} {maxReadSize quota ioBufferSize : Int} {Ok : Rep → Event → Prop} {s : Rep}

theorem Answers.forall_mem {ok : Int × Int → Prop} {t s : Rep} (h : Answers ok t s)
    (hs : ∀ p ∈ s.responses, ok p) : ∀ p ∈ t.responses, ok p := by
  obtain ⟨-, -, ⟨h, -⟩ | ⟨q, -, h, hq, -⟩⟩ := h <;> rw [h]
  · exact hs
  · intro p hp
    rcases List.mem_append.mp hp with hp | hp
    · exact hs p hp
    · rw [List.mem_singleton.mp hp]
      exact hq

/-- Until a replicator run from `Run` starts `ChangeChunkVers` it has raised no version change
and answered only with failures; it starts it at most once, and only once done. -/
theorem vers_reachable (h : Reachable cfg (Admitted maxReadSize quota ioBufferSize) Ok s) :
    (s.versStarts = 0 ∧ s.changeVers = false ∧ ∀ p ∈ s.responses, p.1 < 0 ∧ p.2 = -1) ∨
      (s.versStarts = 1 ∧ s.done = true) := by
  induction h with
  | run env h0 =>
    obtain ⟨op, ct, lv, rsz, rfl⟩ := admitted_fresh h0
    rcases (vers_run : VersOnce ((Rep.create op ct lv rsz).run cfg env) _) with
      ⟨h, hc, ha⟩ | ⟨h, hd, -, -⟩
    · exact .inl ⟨h, Bool.eq_false_iff.mpr (mt hc Bool.false_ne_true),
        ha.forall_mem (by simp [Rep.create])⟩
    · exact .inr ⟨h, hd⟩
  | step hr _ hs ih =>
    rcases ih with ⟨h0, hc0, ha0⟩ | ⟨h1, hd⟩
    · rcases vers_step_of_idle hc0 hs with ⟨h, hc, ha⟩ | ⟨h, hd, -, -⟩
      · exact .inl ⟨h.trans h0, by simpa [hc0] using mt hc, ha.forall_mem ha0⟩
      · exact .inr ⟨by rw [h, h0], hd⟩
    · have hv : Settled _ := ((finish_reachable_of_fresh admitted_fresh hr).1 hd).symm
      obtain ⟨-, -, -, hn, hd'⟩ := settled_step (disc_reachable hr) hv hs
      exact .inr ⟨hn.trans h1, hd'.trans hd⟩

/-- `ChangeChunkVers` is started at most once per replicator, and never before the copy is
done. -/
theorem changeChunkVers_at_most_once
    (h : Reachable cfg (Admitted maxReadSize quota ioBufferSize) Ok s) :
    s.versStarts ≤ 1 ∧ (0 < s.versStarts → s.done = true) := by
  rcases vers_reachable h with ⟨h0, -, -⟩ | ⟨h1, hd⟩
  · exact ⟨by omega, fun h' => by omega⟩
  · exact ⟨by omega, fun _ => hd⟩

theorem changeChunkVers_at_most_once_empty :
    let cfg : Cfg := ⟨false, 0, false, fun _ => []⟩
    let op : ReplicateChunkOp := ⟨1, 2, 1, 2, true, 20000, 0, 0, 0, 0, 0, 0, []⟩
    let s := (Event.metadataDone 0 0 1).apply cfg Env.ok ((Rep.create op false true 0).run cfg Env.ok)
    Reachable cfg (Admitted 0 0 0) (fun _ _ => True) s ∧ s.versStarts = 1 ∧
      s.versStarts ≤ 1 ∧ (0 < s.versStarts → s.done = true) := by
  intro cfg op s
  have h1 := @Reachable.step cfg (Admitted 0 0 0) (fun _ _ => True) _ _ Env.ok
    (.metadataDone 0 0 1) (.run Env.ok ⟨⟨true, 0, true, true, true⟩, op, rfl⟩) trivial rfl
  exact ⟨h1, rfl, changeChunkVers_at_most_once h1⟩

/-- The step that starts `ChangeChunkVers` finds none started, and leaves the replicator done,
not cancelled, and with the version change outstanding or the op answered. -/
theorem changeChunkVers_started {env : Env} {e : Event} {s' : Rep}
    (h : Reachable cfg (Admitted maxReadSize quota ioBufferSize) Ok s)
    (hs : step cfg env e s = some s') (hv : s'.versStarts ≠ s.versStarts) :
    s.versStarts = 0 ∧ s'.versStarts = 1 ∧ s'.done = true ∧ s'.cancelFlag = false ∧
      (s'.changeVers = true ∨ s'.owner = false) := by
  have hd := disc_reachable h
  have hf := finish_reachable_of_fresh admitted_fresh h
  rcases vers_reachable h with ⟨h0, hc0, -⟩ | ⟨-, hd1⟩
  · rcases vers_step_of_idle hc0 hs with ⟨h', -⟩ | ⟨h', hd', hc, -⟩
    · exact absurd h' hv
    · exact ⟨h0, by omega, hd', hc, ((finish_step hd hf hs).1 hd').symm⟩
  · exact absurd (settled_step hd (hf.1 hd1).symm hs).2.2.2.1 hv

theorem changeChunkVers_started_empty :
    let cfg : Cfg := ⟨false, 0, false, fun _ => []⟩
    let op : ReplicateChunkOp := ⟨1, 2, 1, 2, true, 20000, 0, 0, 0, 0, 0, 0, []⟩
    let s := (Rep.create op false true 0).run cfg Env.ok
    let s' := (Event.metadataDone 0 0 1).apply cfg Env.ok s
    Reachable cfg (Admitted 0 0 0) (fun _ _ => True) s ∧
      step cfg Env.ok (.metadataDone 0 0 1) s = some s' ∧ s'.versStarts ≠ s.versStarts ∧
      s.versStarts = 0 ∧ s'.versStarts = 1 ∧ s'.done = true ∧ s'.cancelFlag = false ∧
        (s'.changeVers = true ∨ s'.owner = false) := by
  intro cfg op s s'
  have h0 : Reachable cfg (Admitted 0 0 0) (fun _ _ => True) s :=
    .run Env.ok ⟨⟨true, 0, true, true, true⟩, op, rfl⟩
  have hs : step cfg Env.ok (.metadataDone 0 0 1) s = some s' := rfl
  have hv : s'.versStarts ≠ s.versStarts := by decide
  exact ⟨h0, hs, hv, changeChunkVers_started h0 hs hv⟩

/-- Once the copy is settled, with `ChangeChunkVers` outstanding or the op answered, it stays
settled, and no later event writes to the chunk, allocates it or starts `ChangeChunkVers`. -/
theorem settled_no_chunk_calls {s' : Rep}
    (h : Reachable cfg (Admitted maxReadSize quota ioBufferSize) Ok s)
    (hv : s.changeVers = true ∨ s.owner = false) (hs : Steps cfg Ok s s') :
    (s'.changeVers = true ∨ s'.owner = false) ∧ s'.writes = s.writes ∧ s'.allocs = s.allocs ∧
      s'.versStarts = s.versStarts := by
  have := hs.preserve
    (P := fun t => Reachable cfg (Admitted maxReadSize quota ioBufferSize) Ok t ∧ Settled t ∧
      t.writes = s.writes ∧ t.allocs = s.allocs ∧ t.versStarts = s.versStarts)
    (fun ⟨hr, hv, hw, ha, hn⟩ hok hst => by
      obtain ⟨hv', hw', ha', hn', -⟩ := settled_step (disc_reachable hr) hv hst
      exact ⟨.step hr hok hst, hv', hw'.trans hw, ha'.trans ha, hn'.trans hn⟩)
    ⟨h, hv, rfl, rfl, rfl⟩
  exact this.2

theorem settled_no_chunk_calls_empty :
    let cfg : Cfg := ⟨false, 0, false, fun _ => []⟩
    let op : ReplicateChunkOp := ⟨1, 2, 1, 2, true, 20000, 0, 0, 0, 0, 0, 0, []⟩
    let s := (Event.metadataDone 0 0 1).apply cfg Env.ok ((Rep.create op false true 0).run cfg Env.ok)
    let s' := (Event.changeVersDone 0).apply cfg Env.ok s
    Reachable cfg (Admitted 0 0 0) (fun _ _ => True) s ∧ s.changeVers = true ∧
      Steps cfg (fun _ _ => True) s s' ∧ s'.owner = false ∧
      (s'.changeVers = true ∨ s'.owner = false) ∧ s'.writes = s.writes ∧ s'.allocs = s.allocs ∧
        s'.versStarts = s.versStarts := by
  intro cfg op s s'
  have h1 := @Reachable.step cfg (Admitted 0 0 0) (fun _ _ => True) _ _ Env.ok
    (.metadataDone 0 0 1) (.run Env.ok ⟨⟨true, 0, true, true, true⟩, op, rfl⟩) trivial rfl
  have hs : Steps cfg (fun _ _ => True) s s' :=
    @Steps.tail cfg _ s s s' Env.ok (.changeVersDone 0) (.refl s) trivial rfl
  exact ⟨h1, rfl, hs, rfl, settled_no_chunk_calls h1 (.inl rfl) hs⟩

/-- The op is answered with status 0 only by a replicator that finished the copy and started
`ChangeChunkVers`. -/
theorem success_only_after_changeChunkVers
    (h : Reachable cfg (Admitted maxReadSize quota ioBufferSize) Ok s) :
    ∀ p ∈ s.responses, p.1 = 0 → s.done = true ∧ s.versStarts = 1 := by
  intro p hp h0
  rcases vers_reachable h with ⟨-, -, hneg⟩ | ⟨h1, hd⟩
  · exact absurd h0 (hneg p hp).1.ne
  · exact ⟨hd, h1⟩

theorem success_only_after_changeChunkVers_empty :
    let cfg : Cfg := ⟨false, 0, false, fun _ => []⟩
    let op : ReplicateChunkOp := ⟨1, 2, 1, 2, true, 20000, 0, 0, 0, 0, 0, 0, []⟩
    let s := (Event.changeVersDone 0).apply cfg Env.ok
      ((Event.metadataDone 0 0 1).apply cfg Env.ok ((Rep.create op false true 0).run cfg Env.ok))
    Reachable cfg (Admitted 0 0 0) (fun _ _ => True) s ∧ s.responses.map Prod.fst = [0] ∧
      ∀ p ∈ s.responses, p.1 = 0 → s.done = true ∧ s.versStarts = 1 := by
  intro cfg op s
  have h1 := @Reachable.step cfg (Admitted 0 0 0) (fun _ _ => True) _ _ Env.ok
    (.metadataDone 0 0 1) (.run Env.ok ⟨⟨true, 0, true, true, true⟩, op, rfl⟩) trivial rfl
  have h2 := @Reachable.step cfg (Admitted 0 0 0) (fun _ _ => True) _ _ Env.ok
    (.changeVersDone 0) h1 trivial rfl
  exact ⟨h2, rfl, success_only_after_changeChunkVers h2⟩

theorem outstanding_quiet (h : Quiet s) : outstanding s = 0 := by
  obtain ⟨hw, hp, hs, hc, hr, hpc⟩ := h
  have hpo : (s.posted && !s.pendingCancel) = false := by
    cases hpo : s.posted
    · rfl
    · simp [hpc hpo]
  simp [outstanding, hw, hp, hs, hc, hr, hpo]

/-- Under the handoff discipline one operation at most is outstanding: each one that is makes
the rest quiet. -/
theorem outstanding_le_one (h : Disc s) : outstanding s ≤ 1 := by
  obtain ⟨-, hwt, hpo, hsw, hcv, hri, -⟩ := h.2
  by_cases hw : s.waiting = true
  · have := outstanding_quiet (hwt hw).1
    simp only [outstanding, Rep.posted, hw, Bool.toNat_true, Bool.toNat_false] at this ⊢
    omega
  by_cases hp : s.peerOp ≠ none
  · have := outstanding_quiet (hpo hp)
    simp only [outstanding, Rep.posted, Option.isSome_iff_ne_none.mpr hp, Bool.toNat_true,
      Bool.toNat_false, Option.isSome_none] at this ⊢
    omega
  by_cases hs : s.storeWrite = true
  · have := outstanding_quiet (hsw hs).1
    simp only [outstanding, Rep.posted, hs, Bool.toNat_true, Bool.toNat_false] at this ⊢
    omega
  by_cases hc : s.changeVers = true
  · have := outstanding_quiet (hcv hc).1
    simp only [outstanding, Rep.posted, hc, Bool.toNat_true, Bool.toNat_false] at this ⊢
    omega
  by_cases hr : s.readInFlight = true
  · have := outstanding_quiet (hri hr).1
    simp only [outstanding, Rep.posted, hr, Bool.toNat_true, Bool.toNat_false] at this ⊢
    omega
  simp only [Bool.not_eq_true, not_not] at hw hp hs hc hr
  simp only [outstanding, hw, hp, hs, hc, hr, Option.isSome_none, Bool.toNat_false, Nat.zero_add]
  exact Bool.toNat_le _

/-- A replicator run from `Run` has at most one operation outstanding at any time, and none but
a posted cancel once its op is answered. -/
theorem one_op_outstanding (h : Reachable cfg (Admitted maxReadSize quota ioBufferSize) Ok s) :
    outstanding s ≤ 1 ∧ (s.owner = false → outstanding s = 0) :=
  ⟨outstanding_le_one (disc_reachable h), fun ho => outstanding_quiet ((disc_reachable h).2.1 ho).1⟩

/-- A direct replicator that has asked its peer for the chunk's size has that one op
outstanding. -/
theorem one_op_outstanding_sizing :
    let cfg : Cfg := ⟨false, 0, false, fun _ => []⟩
    let op : ReplicateChunkOp := ⟨1, 2, 1, 2, true, 20000, 0, 0, 0, 0, 0, 0, []⟩
    let s := (Rep.create op false true 0).run cfg Env.ok
    Reachable cfg (Admitted 0 0 0) (fun _ _ => True) s ∧ outstanding s = 1 ∧
      outstanding s ≤ 1 ∧ (s.owner = false → outstanding s = 0) := by
  intro cfg op s
  have h0 : Reachable cfg (Admitted 0 0 0) (fun _ _ => True) s :=
    .run Env.ok ⟨⟨true, 0, true, true, true⟩, op, rfl⟩
  exact ⟨h0, rfl, one_op_outstanding h0⟩

/-- A replicator run from `Run` answers its op with status 0 or a negative error, never a
positive code, and with version `-1` whenever the status is an error. -/
theorem answers_well_formed (h : Reachable cfg (Admitted maxReadSize quota ioBufferSize) Ok s) :
    ∀ p ∈ s.responses, p.1 ≤ 0 ∧ (p.1 < 0 → p.2 = -1) := by
  induction h with
  | run env h0 =>
    obtain ⟨op, ct, lv, rsz, rfl⟩ := admitted_fresh h0
    exact vers_run.answers.forall_mem (by simp [Rep.create])
  | step _ _ hs ih => exact (answers_step hs).forall_mem ih

/-- A replicator run from `Run` bumps no failure counter before it answers its op; after, at
most one, of the op's kind (replication or recovery): the error or the cancel counter when the
answer is a failure, or when `HandleReplicationDone` found the replicator cancelled, which it
then answered with version `-1`. -/
theorem failures_counted_once (h : Reachable cfg (Admitted maxReadSize quota ioBufferSize) Ok s) :
    (s.responses = [] ∧ s.ctrs = {}) ∨
      ∃ p cf, s.responses = [p] ∧ (cf = true → s.cancelFlag = true ∧ p.2 = -1) ∧
        s.ctrs = if p.1 < 0 ∨ cf = true then ({} : Counters).bumpFailed s.op.locationValid cf
          else {} := by
  induction h with
  | run env h0 =>
    obtain ⟨op, ct, lv, rsz, rfl⟩ := admitted_fresh h0
    exact Counted.answer (.inl ⟨rfl, rfl⟩) vers_run.answers
      (responses_length_le (disc_reachable (@Reachable.run cfg _ Ok _ env h0)))
  | step hr hok hs ih =>
    exact Counted.answer ih (answers_step hs)
      (responses_length_le (disc_reachable (.step hr hok hs)))

/-- A copy of an empty chunk, cancelled while `ChangeChunkVers` is outstanding: the op is
answered with status 0 and version `-1`, and counted as a cancelled replication. -/
theorem failures_counted_once_cancelled :
    let cfg : Cfg := ⟨false, 0, false, fun _ => []⟩
    let op : ReplicateChunkOp := ⟨1, 2, 7, 8, true, 0, 0, 0, 0, 0, 0, 0, []⟩
    let s := (Event.changeVersDone 0).apply cfg Env.ok (Event.cancel.apply cfg Env.ok
      ((Event.metadataDone 0 0 7).apply cfg Env.ok ((Rep.create op false true 0).run cfg Env.ok)))
    Reachable cfg (Admitted 0 0 0) (fun _ _ => True) s ∧ s.responses = [(0, -1)] ∧
      s.ctrs = { replicationCanceledCount := 1 } ∧
      ((s.responses = [] ∧ s.ctrs = {}) ∨
        ∃ p cf, s.responses = [p] ∧ (cf = true → s.cancelFlag = true ∧ p.2 = -1) ∧
          s.ctrs = if p.1 < 0 ∨ cf = true then ({} : Counters).bumpFailed s.op.locationValid cf
            else {}) := by
  intro cfg op s
  have h1 := @Reachable.step cfg (Admitted 0 0 0) (fun _ _ => True) _ _ Env.ok
    (.metadataDone 0 0 7) (.run Env.ok ⟨⟨true, 0, true, true, true⟩, op, rfl⟩) trivial rfl
  have h2 := @Reachable.step cfg (Admitted 0 0 0) (fun _ _ => True) _ _ Env.ok .cancel h1
    trivial rfl
  have h3 := @Reachable.step cfg (Admitted 0 0 0) (fun _ _ => True) _ _ Env.ok
    (.changeVersDone 0) h2 trivial rfl
  exact ⟨h3, rfl, rfl, failures_counted_once h3⟩

theorem Reachable.steps {Init : Rep → Prop} {s' : Rep} (h : Reachable cfg Init Ok s)
    (hs : Steps cfg Ok s s') : Reachable cfg Init Ok s' := by
  induction hs with
  | refl => exact h
  | tail _ hok hst ih => exact .step ih hok hst

/-- Once `mCancelFlag` is set with no version change outstanding, both stay so, and every answer
given from then on is `-ECANCELED` with version `-1`. -/
theorem ecanceled_steps {s' : Rep} (hc : s.cancelFlag = true) (hv : s.changeVers = false)
    (hs : Steps cfg Ok s s') :
    s'.cancelFlag = true ∧ s'.changeVers = false ∧ s'.versStarts = s.versStarts ∧
      ∃ l, s'.responses = s.responses ++ l ∧ ∀ p ∈ l, CancelAnswer p := by
  refine hs.preserve (P := fun t => t.cancelFlag = true ∧ t.changeVers = false ∧
      t.versStarts = s.versStarts ∧ ∃ l, t.responses = s.responses ++ l ∧ ∀ p ∈ l, CancelAnswer p)
    (fun ⟨hc, hv, hn, l, hl, hp⟩ _ hst => ?_) ⟨hc, hv, rfl, [], by simp, by simp⟩
  obtain ⟨hc', hv', hn'⟩ := ecanceled_idle_step hc hv hst
  obtain ⟨-, -, hr | ⟨q, -, hr, hq, -⟩⟩ := ecanceled_step hc hv hst
  · exact ⟨hc', hv', hn'.trans hn, l, by rw [hr.1, hl], hp⟩
  · refine ⟨hc', hv', hn'.trans hn, l ++ [q], by rw [hr, hl, List.append_assoc], fun p hp' => ?_⟩
    rcases List.mem_append.mp hp' with hp' | hp'
    · exact hp p hp'
    · rw [List.mem_singleton.mp hp']; exact hq

/-- Once `mCancelFlag` is set and no version change is outstanding, the replicator stays
cancelled, never starts a `ChangeChunkVers`, and whatever completes next (the size reply, a
read, a write, the reader, a queued `Handle()`) answers the op at most once more, and then with
`-ECANCELED` and version `-1`. -/
theorem cancel_answers_ecanceled {s' : Rep}
    (h : Reachable cfg (Admitted maxReadSize quota ioBufferSize) Ok s) (hc : s.cancelFlag = true)
    (hv : s.changeVers = false) (hs : Steps cfg Ok s s') :
    s'.cancelFlag = true ∧ s'.changeVers = false ∧ s'.versStarts = s.versStarts ∧
      (s'.responses = s.responses ∨ s'.responses = s.responses ++ [(-ECANCELED, -1)]) := by
  obtain ⟨hc', hv', hn, l, hl, hp⟩ := ecanceled_steps hc hv hs
  have hlen := responses_length_le (disc_reachable (h.steps hs))
  refine ⟨hc', hv', hn, ?_⟩
  match l, hp with
  | [], _ => exact .inl (by simpa using hl)
  | [q], hq => exact .inr (by rw [hl, hq q (List.mem_singleton_self q)])
  | _ :: _ :: _, _ => rw [hl] at hlen; simp at hlen; omega

/-- A direct replicator cancelled while its size request is out: the reply answers the op with
`-ECANCELED` and version `-1`. -/
theorem cancel_answers_ecanceled_direct :
    let cfg : Cfg := ⟨false, 0, false, fun _ => []⟩
    let op : ReplicateChunkOp := ⟨1, 2, 1, 2, true, 20000, 0, 0, 0, 0, 0, 0, []⟩
    let s := Event.cancel.apply cfg Env.ok ((Rep.create op false true 0).run cfg Env.ok)
    let s' := (Event.metadataDone 0 1 1).apply cfg Env.ok s
    Reachable cfg (Admitted 0 0 0) (fun _ _ => True) s ∧ s.cancelFlag = true ∧
      s.changeVers = false ∧ Steps cfg (fun _ _ => True) s s' ∧ s'.responses = [(-ECANCELED, -1)] ∧
      (s'.cancelFlag = true ∧ s'.changeVers = false ∧ s'.versStarts = s.versStarts ∧
        (s'.responses = s.responses ∨ s'.responses = s.responses ++ [(-ECANCELED, -1)])) := by
  intro cfg op s s'
  have h1 := @Reachable.step cfg (Admitted 0 0 0) (fun _ _ => True) _ _ Env.ok
    .cancel (.run Env.ok ⟨⟨true, 0, true, true, true⟩, op, rfl⟩) trivial rfl
  have hs : Steps cfg (fun _ _ => True) s s' :=
    @Steps.tail cfg _ s s s' Env.ok (.metadataDone 0 1 1) (.refl s) trivial rfl
  exact ⟨h1, rfl, rfl, hs, rfl, cancel_answers_ecanceled h1 rfl rfl hs⟩

end

end QfsReplicator
