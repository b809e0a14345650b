import QfsReplicator.Model.Admission

/-! # A cancel that outruns the buffer grant

`RSReplicatorImpl::Cancel` only posts the cancel. If the buffer grant arrives before the client
thread runs it, `Start` sees the pending cancel and does nothing; `HandleCancel` then finds
`mState == kNone` and returns. What remains waits for nothing, and no event ever gets it to
`HandleReplicationDone`.
-/

namespace QfsReplicator

/-- A recovery replicator with a cancel pending that has not answered its op and waits for
nothing: no buffers, no reader completion, no store write, no `ChangeChunkVers`, and no queued
or inline `Handle()`. -/
def Stalled (s : Rep) : Prop :=
  s.rs = true ∧ s.owner = true ∧ s.dead = none ∧ s.pendingCancel = true ∧ s.waiting = false ∧
    s.peerOp = none ∧ s.storeWrite = false ∧ s.changeVers = false ∧ s.readerReads = 0 ∧
    s.readerClose = false ∧ s.readerRegistered = false ∧ s.queued = false ∧ s.runNow = false ∧
    s.responses = []

/-- A stalled replicator only takes further cancels, which change nothing that matters. -/
theorem stalled_step {cfg : Cfg} {env : Env} {e : Event} {s s' : Rep} (h : Stalled s)
    (hs : step cfg env e s = some s') : Stalled s' := by
  obtain ⟨-, hen, rfl⟩ := step_eq_some hs
  obtain ⟨hrs, ho, hd, hpc, hw, hpo, hsw, hcv, hrr, hrc, hrg, hq, hrn, hresp⟩ := h
  cases e <;> simp [Event.enabled, hw, hpo, hsw, hcv, hrr, hrc, hrg, hq, hrn] at hen
  simp only [Event.apply, Rep.cancel, hrs, ↓reduceIte, Rep.rsCancel, hpc]
  exact ⟨rfl, ho, hd, rfl, hw, hpo, hsw, hcv, hrr, hrc, hrg, hq, hrn, hresp⟩

/-- A recovery replicator with a client thread, cancelled while it waits for buffers and
granted them before the client thread runs the cancel, stalls: it never answers its op. -/
theorem cancel_before_grant_stalls :
    let cfg : Cfg := ⟨false, CHUNKSIZE, false, fun _ => []⟩
    let op : ReplicateChunkOp := ⟨1, 2, 1, 2, false, 20000, 0, 2, 6, 3, 65536, 1, []⟩
    let s := Event.handleQueued.apply cfg Env.ok
      (Event.granted.apply cfg Env.ok
        (Event.cancel.apply cfg Env.ok
          ((Rep.create op true true (getReadSize kDefaultReplicationReadSize 67108864 4096 op)).run
            cfg { Env.ok with getForDiskIo := false })))
    Reachable cfg (RecoveryInit kDefaultReplicationReadSize 67108864 4096) (fun _ _ => True) s ∧
      Stalled s ∧
      ∀ s', Steps cfg (fun _ _ => True) s s' → s'.owner = true ∧ s'.responses = [] := by
  intro cfg op s
  have h0 := @Reachable.run cfg (RecoveryInit kDefaultReplicationReadSize 67108864 4096)
    (fun _ _ => True) _ { Env.ok with getForDiskIo := false } ⟨op, true, true, rfl, rfl, rfl⟩
  have h1 := @Reachable.step _ _ _ _ _ Env.ok .cancel h0 trivial rfl
  have h2 := @Reachable.step _ _ _ _ _ Env.ok .granted h1 trivial rfl
  have hst : Stalled s := ⟨rfl, rfl, rfl, rfl, rfl, rfl, rfl, rfl, rfl, rfl, rfl, rfl, rfl, rfl⟩
  refine ⟨@Reachable.step _ _ _ _ _ Env.ok .handleQueued h2 trivial rfl, hst, fun s' h => ?_⟩
  have := h.preserve (fun hs _ hst => stalled_step hs hst) hst
  exact ⟨this.2.1, this.2.2.2.2.2.2.2.2.2.2.2.2.2⟩

end QfsReplicator
