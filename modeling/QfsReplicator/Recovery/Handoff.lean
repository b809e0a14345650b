import QfsReplicator.Lifecycle.Discipline

/-! # The recovery replicator's handoff to its client thread

`Enqueue` claims a transition, `Handle()` runs it on the client thread, and `HandleCompletion`
releases it. The discipline of `disc_reachable` keeps `Enqueue` and `Handle` away from their
`die`s, keeps at most one reader `Read` outstanding and only in `kRead`, and leaves
`HandleCompletion` without a claimed state only where `Start` calls it for an invalid meta server
location. `HandleCancel`'s `assert(mState == kStart)` is another matter: a cancel that finds a
`kRead` claimed with no read in flight, for instance one a store write completion has just
enqueued, reaches it with `mState == kRead`.
-/

namespace QfsReplicator

section

variable {s : Rep} {env : Env} {oc : Bool}

/-- The `die`s `ProtocolDie` names are exactly those of `Enqueue`: every `die` it makes has
such a message. -/
theorem enqueue_dead {inState : State} :
    (s.enqueue oc inState).dead = s.dead ∨
      ∃ m, (s.enqueue oc inState).dead = some m ∧ ProtocolDie m := by
  have hp : "recovery: invalid state".data <+: "recovery: invalid state transtion from: ".data := by
    decide
  unfold Rep.enqueue Rep.post
  split_ifs
  · exact .inr ⟨_, rfl, .inl (List.prefix_refl _)⟩
  all_goals first
    | exact .inl rfl
    | exact .inr ⟨_, rfl, .inr (hp.trans (by
        simp only [String.data_append, List.append_assoc]
        exact List.prefix_append _ _))⟩

/-- ... and of `Handle`, which dies when it finds nothing claimed and no cancel. -/
theorem handle_of_unclaimed (hpc : s.pendingCancel = false) (hk : s.state = .kNone) :
    s.handle env oc = s.die "recovery: invalid state" ∧ ProtocolDie "recovery: invalid state" := by
  exact ⟨by simp [Rep.handle, hpc, hk], by decide⟩

end

/-- Along any interleaving of the events of a replicator `Replicator::Run` starts, `Enqueue` and
`Handle` never reach their `die`s, at most one reader `Read` is outstanding, `mReadInFlightFlag`
is set only in `kRead`, and `HandleCompletion` finds no claimed state only for an invalid meta
server location. -/
theorem rs_handoff_discipline {cfg : Cfg} {maxReadSize quota ioBufferSize : Int}
    {Ok : Rep → Event → Prop} {s : Rep}
    (h : Reachable cfg (Admitted maxReadSize quota ioBufferSize) Ok s) :
    (∀ m, s.dead = some m → ¬ProtocolDie m) ∧ s.readerReads ≤ 1 ∧
      (s.readInFlight = true → s.state = .kRead) ∧ (s.unclaimed = true → s.locationValid = false) := by
  obtain ⟨⟨-, ⟨hr1, -⟩, -, hd, hu⟩, hb⟩ := disc_reachable h
  exact ⟨hd, hr1, fun hr => (hb.2.2.2.2.2.1 hr).2, hu⟩

/-- A recovery whose meta server location is invalid: `Start` calls `HandleCompletion` with
nothing claimed. -/
theorem rs_handoff_discipline_invalid_location :
    let cfg : Cfg := ⟨false, CHUNKSIZE, false, fun _ => []⟩
    let op : ReplicateChunkOp := ⟨1, 2, 1, 2, false, 20000, 0, 2, 6, 3, 65536, 1, []⟩
    let s := (Rep.create op false false
      (getReadSize kDefaultReplicationReadSize 67108864 4096 op)).run cfg Env.ok
    Reachable cfg (Admitted kDefaultReplicationReadSize 67108864 4096) (fun _ _ => True) s ∧
      s.unclaimed = true ∧
      (∀ m, s.dead = some m → ¬ProtocolDie m) ∧ s.readerReads ≤ 1 ∧
      (s.readInFlight = true → s.state = .kRead) ∧ (s.unclaimed = true → s.locationValid = false) := by
  intro cfg op s
  have h0 := @Reachable.run cfg (Admitted kDefaultReplicationReadSize 67108864 4096)
    (fun _ _ => True) _ Env.ok ⟨⟨false, 0, true, false, false⟩, op, rfl⟩
  exact ⟨h0, rfl, rs_handoff_discipline h0⟩

/-- A recovery of a 3-byte chunk on a replicator with a client thread: the reader returns the
3 bytes, the store write completes on the main thread and enqueues the next `kRead`, and a
cancel arrives before the client thread runs it. `HandleCancel` then passes `Cancel` with
`kRead` claimed and no read in flight, where it asserts `mState == kStart`. -/
theorem queued_read_cancel_fails_assert :
    let cfg : Cfg := ⟨false, CHUNKSIZE, false, fun _ => []⟩
    let op : ReplicateChunkOp := ⟨1, 2, 1, 2, false, 20000, 0, 2, 6, 3, 65536, 1, []⟩
    let s0 := (Rep.create op true true
      (getReadSize kDefaultReplicationReadSize 67108864 4096 op)).run cfg Env.ok
    let s1 := Event.handleInline.apply cfg Env.ok (Event.handleQueued.apply cfg Env.ok s0)
    let s2 := (Event.writeDone 0 3 false).apply cfg Env.ok
      ((Event.readerDone 0 0 3 (some [1, 2, 3])).apply cfg Env.ok s1)
    let s := Event.handleQueued.apply cfg Env.ok (Event.cancel.apply cfg Env.ok s2)
    Reachable cfg (Admitted kDefaultReplicationReadSize 67108864 4096) (fun _ _ => True) s ∧
      s2.state = .kRead ∧ s2.queued = true ∧ s2.readInFlight = false ∧
      s.cancelAssert = true := by
  refine ⟨?_, by decide⟩
  have h0 := @Reachable.run ⟨false, CHUNKSIZE, false, fun _ => []⟩
    (Admitted kDefaultReplicationReadSize 67108864 4096) (fun _ _ => True) _ Env.ok
    ⟨⟨false, 0, true, true, true⟩, ⟨1, 2, 1, 2, false, 20000, 0, 2, 6, 3, 65536, 1, []⟩, rfl⟩
  have h1 := @Reachable.step _ _ _ _ _ Env.ok .handleQueued h0 trivial rfl
  have h2 := @Reachable.step _ _ _ _ _ Env.ok .handleInline h1 trivial rfl
  have h3 := @Reachable.step _ _ _ _ _ Env.ok (.readerDone 0 0 3 (some [1, 2, 3])) h2 trivial rfl
  have h4 := @Reachable.step _ _ _ _ _ Env.ok (.writeDone 0 3 false) h3 trivial rfl
  have h5 := @Reachable.step _ _ _ _ _ Env.ok .cancel h4 trivial rfl
  exact @Reachable.step _ _ _ _ _ Env.ok .handleQueued h5 trivial rfl

end QfsReplicator
