import QfsReplicator.Direct.Copy
import QfsReplicator.Lifecycle.Discipline

/-! # The response a replicator submits

`HandleReplicationDone` is the one place a replicator answers its op. `Terminate` passes it a
negative status for every outcome but a finished, uncancelled copy, whatever status it was
given; `ChangeChunkVers` passes its own completion status. The op's status comes from that
status alone, its version from the status and `mCancelFlag`: a cancel that lands while
`ChangeChunkVers` is outstanding is answered with status 0 and version `-1`.

By the handoff discipline (`disc_reachable`) it runs once: the op is answered at most once, the
staging file is released at most once, with a negative status unless the release came,
uncancelled, with a successful answer, and once the op is answered nothing changes either.
-/

namespace QfsReplicator

namespace Rep

variable {s : Rep} {env : Env} {st : Int}

/-- `Terminate` reports failure for anything but a finished, uncancelled copy, also when it is
given 0 or a positive code. -/
theorem terminate_opStatus_neg (h : (s.done && !s.cancelFlag) = false) :
    (s.terminate env st).opStatus < 0 := by
  unfold terminate handleReplicationDone
  simp only [h, Bool.false_eq_true, ↓reduceIte]
  split_ifs <;> omega

end Rep

/-- A direct replicator of an empty chunk, cancelled while `ChangeChunkVers` is outstanding,
answers its op with status 0 and version `-1`. -/
theorem cancelled_finalize_reports_success :
    let cfg : Cfg := ⟨false, 0, false, fun _ => []⟩
    let s := (Event.changeVersDone 0).apply cfg Env.ok
      (Event.cancel.apply cfg Env.ok
        ((Event.metadataDone 0 0 7).apply cfg Env.ok
          ((Rep.create ⟨1, 2, 7, 8, true, 0, 0, 0, 0, 0, 0, 0, []⟩ false true 0).run cfg Env.ok)))
    Reachable cfg DirectInit (fun _ _ => True) s ∧ s.cancelFlag = true ∧ s.responses = [(0, -1)] := by
  intro cfg s
  have h0 := @Reachable.run cfg DirectInit (fun _ _ => True) _ Env.ok
    ⟨⟨1, 2, 7, 8, true, 0, 0, 0, 0, 0, 0, 0, []⟩, false, true, 0, rfl, rfl⟩
  have h1 := @Reachable.step _ _ _ _ _ Env.ok (.metadataDone 0 0 7) h0 trivial rfl
  have h2 := @Reachable.step _ _ _ _ _ Env.ok .cancel h1 trivial rfl
  exact ⟨@Reachable.step _ _ _ _ _ Env.ok (.changeVersDone 0) h2 trivial rfl, rfl, rfl⟩

/-! ## Answered once -/

/-- `t` still has the owner, the releases and the responses of `s`. -/
def KeepsAnswer (s t : Rep) : Prop :=
  t.owner = s.owner ∧ t.releases = s.releases ∧ t.responses = s.responses

section

variable {s : Rep} {env : Env} {oc : Bool}

/-- `HandleCancel` of a replicator that holds no file and has nothing claimed only detaches. -/
theorem keepsAnswer_handleCancel (hw : s.waiting = false) (hf : s.fileHandle = false)
    (hk : s.state = .kNone) : KeepsAnswer s (s.handleCancel env oc) := by
  unfold Rep.handleCancel
  dsimp only
  split
  · exact ⟨rfl, rfl, rfl⟩
  · split
    · exact ⟨rfl, rfl, rfl⟩
    · rw [cancelBase_of_waiting_false
        (s := { s with readerRegistered := false, readerReads := 0, readerClose := false }) hw,
        if_pos (Or.inr hk)]
      exact ⟨rfl, by simp [hf], rfl⟩

/-- A reader `Done` without a buffer, with no `Read` in flight, only notes its status. -/
theorem keepsAnswer_completionDone {cfg : Cfg} {st off sz : Int} (hr : s.readInFlight = false) :
    KeepsAnswer s (s.completionDone cfg env oc st off sz none) := by
  unfold Rep.completionDone
  rw [if_neg (by simp)]
  split
  · split <;> exact ⟨rfl, rfl, rfl⟩
  · rw [if_pos (by simp [hr])]
    split <;> exact ⟨rfl, rfl, rfl⟩

/-- Once the op is answered, a step changes neither the answer nor the releases. -/
theorem keepsAnswer_step {cfg : Cfg} {e : Event} {s' : Rep} (h : Disc s) (ho : s.owner = false)
    (hs : step cfg env e s = some s') : KeepsAnswer s s' := by
  obtain ⟨⟨hmo, ⟨-, hr2, -⟩, hl, -⟩, hb⟩ := h
  obtain ⟨⟨hw, hp, hsw, hcv, hr, hpc⟩, hk⟩ := hb.1 ho
  have hf : s.fileHandle = false := by
    cases hf : s.fileHandle
    · rfl
    · simp [(hl.1 hf).1] at ho
  obtain ⟨-, he, rfl⟩ := step_eq_some hs
  cases e with
  | handleInline =>
    have he : s.runNow = true := he
    have hrs : s.rs = true := by
      cases hrs : s.rs
      · simp [(mode_direct hmo hrs).2.2.2.2.1] at he
      · rfl
    have hpost : s.posted = true := by simp [Rep.posted, he]
    show KeepsAnswer s ({ s with runNow := false }.handle env true)
    rw [unpost_of_inline ((mode_recovery hmo hrs).2.2.2.2 he)]
    unfold Rep.handle
    rw [if_pos (hpc hpost)]
    exact keepsAnswer_handleCancel hw hf (hk (.inl hpost))
  | handleQueued =>
    simp only [Event.enabled, Bool.and_eq_true, Bool.not_eq_true'] at he
    have hpost : s.posted = true := by simp [Rep.posted, he.2]
    show KeepsAnswer s ({ s with queued := false }.handle env true)
    rw [unpost_of_queued he.1]
    unfold Rep.handle
    rw [if_pos (hpc hpost)]
    exact keepsAnswer_handleCancel hw hf (hk (.inl hpost))
  | granted => simp [Event.enabled, hw] at he
  | metadataDone => simp [Event.enabled, hp] at he
  | readDone => simp [Event.enabled, hp] at he
  | writeDone => simp [Event.enabled, hsw] at he
  | changeVersDone => simp [Event.enabled, hcv] at he
  | cancel =>
    show KeepsAnswer s (s.cancel env)
    unfold Rep.cancel
    dsimp only
    split
    · unfold Rep.rsCancel
      split
      · exact ⟨rfl, rfl, rfl⟩
      · unfold Rep.enqueue
        rw [if_pos rfl, if_neg (by simp)]
        unfold Rep.post
        split <;> exact ⟨rfl, rfl, rfl⟩
    · rw [cancelBase_of_waiting_false (s := { s with cancelCalls := s.cancelCalls + 1 }) hw]
      exact ⟨rfl, by simp [hf], rfl⟩
  | readerDone =>
    simp only [Event.enabled, Bool.and_eq_true, decide_eq_true_eq] at he
    simp [hr2 he.2] at hr
  | closeDone => exact keepsAnswer_completionDone hr
  | readerNote => exact keepsAnswer_completionDone hr

end

/-- Every op a replicator takes from `Replicator::Run` is answered at most once, and only by
`HandleReplicationDone`, after which no handler reads `mOwner`; its staging file is released at
most once, with a negative status unless the replicator released it uncancelled and answered
the op with status 0; and once the op is answered, no event answers it again or releases a
file. -/
theorem op_answered_once {cfg : Cfg} {maxReadSize quota ioBufferSize : Int}
    {Ok : Rep → Event → Prop} {s : Rep}
    (h : Reachable cfg (Admitted maxReadSize quota ioBufferSize) Ok s) :
    s.responses.length ≤ 1 ∧ s.releases.length ≤ 1 ∧ s.ownerAfterDone = false ∧
      (∀ p ∈ s.releases, p.1 < 0 ∨ (p.2 = false ∧ s.responses.map Prod.fst = [0])) ∧
      ∀ s', Steps cfg Ok s s' → s.responses ≠ [] →
        s'.responses = s.responses ∧ s'.releases = s.releases := by
  have hd := disc_reachable h
  obtain ⟨⟨-, -, ⟨-, hrl, hneg, hresp, hoad⟩, -⟩, -⟩ := id hd
  refine ⟨by split at hresp <;> omega, ?_, hoad, hneg, fun s' hs hne => ?_⟩
  · rcases hrl with h | ⟨h, -⟩ <;> simp [h]
  · have ho : s.owner = false := by
      cases ho : s.owner
      · rfl
      · simp only [ho, ↓reduceIte, List.length_eq_zero] at hresp
        exact absurd hresp hne
    have := hs.preserve
      (P := fun t => Disc t ∧ t.owner = false ∧ t.releases = s.releases ∧ t.responses = s.responses)
      (fun ⟨hd, ho, hr, hq⟩ _ hst => by
        obtain ⟨ho', hr', hq'⟩ := keepsAnswer_step hd ho hst
        exact ⟨disc_step hd hst, ho' ▸ ho, hr' ▸ hr, hq' ▸ hq⟩)
      ⟨hd, ho, rfl, rfl⟩
    exact ⟨this.2.2.2, this.2.2.1⟩

theorem op_answered_once_size_error :
    let cfg : Cfg := ⟨false, 0, false, fun _ => []⟩
    let op : ReplicateChunkOp := ⟨1, 2, 1, 2, true, 20000, 0, 0, 0, 0, 0, 0, []⟩
    let s := (Event.metadataDone (- EIO) 0 0).apply cfg Env.ok
      ((Rep.create op false true 0).run cfg Env.ok)
    Reachable cfg (Admitted 0 0 0) (fun _ _ => True) s ∧ s.responses = [(- EIO, -1)] ∧
      s.responses.length ≤ 1 ∧ s.releases.length ≤ 1 ∧ s.ownerAfterDone = false ∧
      (∀ p ∈ s.releases, p.1 < 0 ∨ (p.2 = false ∧ s.responses.map Prod.fst = [0])) ∧
      ∀ s', Steps cfg (fun _ _ => True) s s' → s.responses ≠ [] →
        s'.responses = s.responses ∧ s'.releases = s.releases := by
  intro cfg op s
  have h0 := @Reachable.run cfg (Admitted 0 0 0) (fun _ _ => True) _ Env.ok
    ⟨⟨true, 0, true, true, true⟩, op, rfl⟩
  have h1 := @Reachable.step _ _ _ _ _ Env.ok (.metadataDone (- EIO) 0 0) h0 trivial rfl
  exact ⟨h1, rfl, op_answered_once h1⟩

end QfsReplicator
