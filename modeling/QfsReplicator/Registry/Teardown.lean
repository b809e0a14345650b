import Mathlib.Data.List.Nodup
import QfsReplicator.Registry.Preempt

/-! # How the registry cancels and destroys replicators

`Cancel()` reaches a replicator only from the registry, and always through a pointer the
registry hands over as it calls it: `Run` overwrites the entry it pre-empts,
`CancelChunkReplication` erases the entry it cancels, and `CancelAll` swaps out every entry
before it cancels what they point to. No handler of a replicator counts a `Cancel()`
(`calls_apply`), and a pointer is never handed to the registry twice: `Run` registers only the
replicator it has just created. So the registry holds every replicator at most once, and only
one that has had no `Cancel()` yet, and every replicator has `Cancel()` called at most once over
every interleaving (`cancel_at_most_once`).

A replicator is destroyed once its op is answered and the reader owes it no close completion.
By the handoff discipline nothing else is owed to it then: no buffer grant, peer reply, store
write, version change or reader `Read` can still call it back, and a `Handle()` still posted for
it is a cancel with nothing claimed (`destroy_owes_nothing`).
-/

namespace QfsReplicator

/-! ## Only `Cancel()` counts itself -/

section

variable {s : Rep} {env : Env} {oc : Bool} {st : Int}

theorem calls_terminate : (s.terminate env st).cancelCalls = s.cancelCalls := by
  unfold Rep.terminate
  split
  · dsimp only
    split <;> rfl
  · rfl

theorem calls_cancelBase : (s.cancelBase env).cancelCalls = s.cancelCalls := by
  unfold Rep.cancelBase
  dsimp only
  split
  · exact calls_terminate
  · rfl

theorem calls_enqueue {inState : State} : (s.enqueue oc inState).cancelCalls = s.cancelCalls := by
  obtain ⟨_, -, _, _, _, h⟩ := s.enqueue_frame oc inState
  rw [h]

theorem calls_read : (s.read env oc).cancelCalls = s.cancelCalls := by
  unfold Rep.read Rep.rsRead Rep.directRead
  split
  · split
    · rfl
    · exact calls_enqueue
  · split
    · exact calls_terminate
    · rfl

theorem calls_handleStartDone : (s.handleStartDone env oc).cancelCalls = s.cancelCalls := by
  unfold Rep.handleStartDone
  split
  · exact calls_terminate
  · dsimp only
    split
    · exact calls_terminate
    · split
      · exact calls_terminate
      · split
        · rfl
        · exact calls_read

theorem calls_writeChunk : (s.writeChunk env).cancelCalls = s.cancelCalls := by
  unfold Rep.writeChunk
  dsimp only
  split
  · exact calls_terminate
  · rfl

theorem calls_readDoneFinish : (s.readDoneFinish env).cancelCalls = s.cancelCalls := by
  unfold Rep.readDoneFinish Rep.alignWrite
  dsimp only
  split
  · exact calls_terminate
  · split
    · rfl
    · split
      · split <;> exact calls_writeChunk
      · exact calls_writeChunk

theorem calls_handleReadDone : (s.handleReadDone env oc).cancelCalls = s.cancelCalls := by
  unfold Rep.handleReadDone
  split
  · exact calls_terminate
  · dsimp only
    split
    · split
      · exact calls_read
      · exact calls_readDoneFinish
    · split <;> exact calls_readDoneFinish

theorem calls_handleWriteDone {n : Int} : (s.handleWriteDone env oc st n).cancelCalls = s.cancelCalls := by
  unfold Rep.handleWriteDone
  dsimp only
  split
  · exact calls_terminate
  · split
    · exact calls_handleReadDone
    · exact calls_read

theorem calls_handleCompletion {md : Bool} :
    (s.handleCompletion env oc md).cancelCalls = s.cancelCalls := by
  unfold Rep.handleCompletion
  dsimp only
  split
  · rfl
  · split
    · exact calls_handleStartDone
    · exact calls_handleReadDone

theorem calls_handleRead : (s.handleRead env oc).cancelCalls = s.cancelCalls := by
  unfold Rep.handleRead
  split
  · exact calls_handleCompletion
  · dsimp only
    split
    · exact calls_handleCompletion
    · rfl

theorem calls_doneFinish {cfg : Cfg} {inOffset ps : Int} {buf : Option (List UInt8)} {ok : Bool} :
    (s.doneFinish cfg env oc st inOffset buf ok ps).cancelCalls = s.cancelCalls := by
  rcases s.doneFinish_cases cfg env oc st inOffset buf ok ps with ⟨_, h⟩ | h | ⟨_, h⟩ <;> rw [h]
  · rfl
  · exact calls_handleCompletion

theorem calls_doneRead {cfg : Cfg} {inOffset : Int} {b : List UInt8} :
    (s.doneRead cfg env oc inOffset b).cancelCalls = s.cancelCalls := by
  unfold Rep.doneRead Rep.doneChecksums
  dsimp only
  repeat' split
  all_goals first | exact calls_doneFinish | exact calls_handleRead

theorem calls_completionDone {cfg : Cfg} {inOffset inSize : Int} {buf : Option (List UInt8)} :
    (s.completionDone cfg env oc st inOffset inSize buf).cancelCalls = s.cancelCalls := by
  unfold Rep.completionDone
  by_cases h1 : buf.isSome ∧ (inOffset < 0 ∨ inSize > s.rdNumBytes ∨ s.readInFlight = false)
  · rw [if_pos h1]; rfl
  rw [if_neg h1]
  by_cases h2 : s.pendingClose = true
  · rw [if_pos h2]; split <;> rfl
  rw [if_neg h2]
  by_cases h3 : (!s.readInFlight) = true
  · rw [if_pos h3]; split <;> rfl
  rw [if_neg h3]
  dsimp only
  split
  · rfl
  · split
    · split
      · exact calls_doneRead
      · exact calls_doneFinish
    · exact calls_doneFinish

theorem calls_handle : (s.handle env oc).cancelCalls = s.cancelCalls := by
  unfold Rep.handle Rep.handleCancel
  split
  · dsimp only
    split
    · rfl
    · split
      · rfl
      · split
        · exact calls_cancelBase
        · split
          · rw [calls_handleReadDone]
            exact calls_cancelBase
          · rw [calls_handleStartDone]
            exact calls_cancelBase
  · split
    · rcases s.handleStart_cases env oc with h | ⟨_, _, h⟩ <;> rw [h]
      · rfl
      · exact calls_handleCompletion
    · exact calls_handleRead
    · rfl

theorem calls_start {cfg : Cfg} : (s.start cfg env oc).cancelCalls = s.cancelCalls := by
  unfold Rep.start Rep.rsStart
  split
  · split
    · rfl
    · dsimp only
      split
      · exact calls_handleCompletion
      · exact calls_enqueue
  · rfl

theorem calls_run {cfg : Cfg} : (s.run cfg env).cancelCalls = s.cancelCalls := by
  unfold Rep.run
  dsimp only
  split
  · exact calls_terminate
  · split
    · exact calls_start
    · rfl

theorem calls_cancel : (s.cancel env).cancelCalls = s.cancelCalls + 1 := by
  unfold Rep.cancel Rep.rsCancel
  dsimp only
  split
  · split
    · rfl
    · exact calls_enqueue
  · exact calls_cancelBase

/-- Every event a replicator sees in the world but `Cancel()` leaves its count of `Cancel()`
calls alone. -/
theorem calls_apply {cfg : Cfg} {e : Event} {inline : Bool} (he : e.inWorld inline = true) :
    (e.apply cfg env s).cancelCalls = s.cancelCalls := by
  cases e with
  | cancel => simp [Event.inWorld] at he
  | handleInline => exact calls_handle
  | handleQueued => exact calls_handle
  | granted => exact calls_start
  | metadataDone => exact calls_handleStartDone
  | readDone => exact calls_handleReadDone
  | writeDone => exact calls_handleWriteDone
  | changeVersDone => rfl
  | readerDone => exact calls_completionDone
  | closeDone => exact calls_completionDone
  | readerNote => exact calls_completionDone

end

/-! ## The pointers the registry holds -/

/-- Each replicator has had `Cancel()` once if the registry has cancelled it and never
otherwise; the registry holds each replicator at most once, and only one that exists and that
the registry has not cancelled. -/
structure CancelOnce (w : World) : Prop where
  calls : ∀ (r : Nat) (sl : Slot), w.slots[r]? = some sl → sl.rep.cancelCalls = if sl.cancelled then 1 else 0
  fresh : ∀ r ∈ w.held, ∃ sl, w.slots[r]? = some sl ∧ sl.cancelled = false
  nodup : w.held.Nodup

section

variable {w w' : World} {r : Nat}

/-- Dropping pointers keeps the invariant. -/
theorem CancelOnce.of_held (h : CancelOnce w) (hs : w'.slots = w.slots) (hh : w'.held.Sublist w.held) :
    CancelOnce w' where
  calls q sl hq := h.calls q sl (hs ▸ hq)
  fresh q hq := hs ▸ h.fresh q (hh.subset hq)
  nodup := h.nodup.sublist hh

/-- So does a change of one replicator that keeps its cancel and its count of `Cancel()`. -/
theorem CancelOnce.modify (h : CancelOnce w) {g : Slot → Slot}
    (hg : ∀ a, (g a).cancelled = a.cancelled ∧ (g a).rep.cancelCalls = a.rep.cancelCalls) (i : Nat)
    (hs : w'.slots = w.slots.modify g i) (hh : w'.held.Sublist w.held) : CancelOnce w' where
  calls q b hq := by
    rw [hs] at hq
    obtain ⟨a, ha, rfl⟩ := slot_of_modify hq
    split
    · rw [(hg a).1, (hg a).2]
      exact h.calls q a ha
    · exact h.calls q a ha
  fresh q hq := by
    obtain ⟨a, ha, hc⟩ := h.fresh q (hh.subset hq)
    refine ⟨if i = q then g a else a, by simp [hs, List.getElem?_modify, ha], ?_⟩
    split
    · rw [(hg a).1, hc]
    · exact hc
  nodup := h.nodup.sublist hh

theorem CancelOnce.update (h : CancelOnce w) (i : Nat) {f : Rep → Rep}
    (hf : ∀ s, (f s).cancelCalls = s.cancelCalls) : CancelOnce (w.update i f) :=
  h.modify (g := fun sl => { sl with rep := f sl.rep }) (fun a => ⟨rfl, hf a.rep⟩) i rfl
    (List.Sublist.refl _)

/-- The registry hands over its one pointer to `r`, and `r` has `Cancel()`. -/
theorem CancelOnce.take (h : CancelOnce w) {env : Env} {F₁ F₂ : List Nat}
    (hh : w.held = F₁ ++ r :: F₂) (hs : w'.slots = (w.cancel env r).slots)
    (hh' : w'.held.Sublist (F₁ ++ F₂)) : CancelOnce w' := by
  obtain ⟨sl, hsl, hc⟩ := h.fresh r (by rw [hh]; exact List.mem_append_right _ (List.mem_cons_self _ _))
  have hnd : (r :: (F₁ ++ F₂)).Nodup := List.nodup_middle.mp (hh ▸ h.nodup)
  have hsub : (F₁ ++ F₂).Sublist w.held := hh ▸ (List.sublist_cons_self r F₂).append_left F₁
  refine ⟨fun q b hq => ?_, fun q hq => ?_, hnd.of_cons.sublist hh'⟩
  · rw [hs, World.slots_cancel] at hq
    obtain ⟨a, ha, rfl⟩ := Option.map_eq_some'.mp hq
    split
    · rename_i hrq
      subst hrq
      cases hsl.symm.trans ha
      have h0 := h.calls r sl hsl
      rw [hc, if_neg (by decide)] at h0
      simp only [calls_cancel, h0, if_true]
    · exact h.calls q a ha
  · have hq' := hh'.subset hq
    have hrq : r ≠ q := fun hrq => hnd.not_mem (hrq ▸ hq')
    obtain ⟨a, ha, hca⟩ := h.fresh q (hsub.subset hq')
    exact ⟨a, by simp [hs, ha, hrq], hca⟩

/-- `Run` registers the replicator it has just created, which has had no `Cancel()`. -/
theorem CancelOnce.register (h : CancelOnce w) {b : Rep} {c : Int} {n : Nat} (hb : b.cancelCalls = 0)
    (hn : n = w.slots.length) :
    CancelOnce { w.push b with inFlight := (c, some n) :: w.inFlight } where
  calls q sl hq := by
    rcases World.slots_push hq with hq | ⟨-, rfl⟩
    · exact h.calls q sl hq
    · exact hb
  fresh q hq := by
    rcases List.mem_cons.mp (show q ∈ n :: w.held from hq) with rfl | hq
    · exact ⟨_, World.slots_push_at b hn, rfl⟩
    · obtain ⟨a, ha, hca⟩ := h.fresh q hq
      exact ⟨a, by rw [World.slots_push_of_lt b (List.getElem?_eq_some_iff.mp ha).1, ha], hca⟩
  nodup := by
    refine List.nodup_cons.mpr ⟨fun hn => ?_, h.nodup⟩
    obtain ⟨a, ha, -⟩ := h.fresh _ hn
    exact absurd (List.getElem?_eq_some_iff.mp ha).1 (by omega)

/-- The entry of chunk `c` in a registry `(pre, c ↦ r, post)`: erasing `c` drops its pointer. -/
theorem held_erase {c : Int} {l₁ l₂ : List (Int × Option Nat)} (hf : w.inFlight = l₁ ++ (c, some r) :: l₂) :
    w.held = l₁.filterMap Prod.snd ++ r :: l₂.filterMap Prod.snd ∧
      ((Registry.erase c w.inFlight).filterMap Prod.snd).Sublist
        (l₁.filterMap Prod.snd ++ l₂.filterMap Prod.snd) := by
  refine ⟨by simp [World.held, hf], ?_⟩
  rw [hf, Registry.erase, List.filter_append, List.filter_cons_of_neg (by simp), List.filterMap_append]
  exact ((List.filter_sublist _).filterMap _).append ((List.filter_sublist _).filterMap _)

end

/-! ## Every world step keeps it -/

section

variable {cfg : Cfg} {maxReadSize quota ioBufferSize : Int} {w w' : World}

theorem cancelOnce_cancelChunk (h : CancelOnce w) (c tv : Int) (env : Env) :
    CancelOnce (w.cancelChunkReplication c tv env).2 := by
  unfold World.cancelChunkReplication
  split
  · rename_i r hf
    split
    · split
      · exact h
      · obtain ⟨l₁, l₂, hl⟩ := List.append_of_mem (Registry.mem_of_find hf)
        obtain ⟨hh, hsub⟩ := held_erase (w := w) hl
        exact h.take hh rfl hsub
    · exact h
  · exact h

/-- `CancelAll` takes every pointer the registry held, and gives each replicator its one
`Cancel()`. -/
theorem cancelOnce_cancelAll (h : CancelOnce w) (env : Nat → Env) : CancelOnce (w.cancelAll env) where
  calls q b hq := by
    unfold World.cancelAll at hq
    by_cases hm : q ∈ w.held
    · rw [World.slots_cancelLoop_of_mem env _ _ h.nodup hm] at hq
      obtain ⟨a, ha, rfl⟩ := Option.map_eq_some'.mp hq
      obtain ⟨a', ha', hc⟩ := h.fresh q hm
      cases ha.symm.trans ha'
      have h0 := h.calls q a ha
      rw [hc, if_neg (by decide)] at h0
      simp only [calls_cancel, h0, if_true]
    · rw [World.slots_cancelLoop_of_not_mem env _ _ hm] at hq
      exact h.calls q b hq
  fresh q hq := by simp [World.held, World.cancelAll] at hq
  nodup := by simp [World.held, World.cancelAll]

theorem cancelOnce_run (h : CancelOnce w) (hsd : Sound w) (renv : RunEnv) (op : ReplicateChunkOp)
    (env : Env) : CancelOnce (w.run cfg maxReadSize quota ioBufferSize renv op env) := by
  unfold World.run
  split
  · exact h
  · exact h.of_held rfl (List.Sublist.refl _)
  · rename_i b hout
    have hb : b.cancelCalls = 0 := by
      obtain ⟨_, _, _, _, rfl⟩ := admitted_fresh ⟨renv, op, hout⟩
      rfl
    rcases hsd.implRun_eq cfg env b with ⟨-, he⟩ | ⟨r, hf, -, he⟩ <;> rw [he]
    · have h₀ : CancelOnce { w with inFlight := Registry.erase b.op.chunkId w.inFlight } :=
        h.of_held rfl ((List.filter_sublist _).filterMap _)
      exact (h₀.register (c := b.op.chunkId) hb rfl).update _ fun _ => calls_run
    · obtain ⟨l₁, l₂, hl⟩ := List.append_of_mem (Registry.mem_of_find hf)
      obtain ⟨hh, hsub⟩ := held_erase (w := w) hl
      have h₀ : CancelOnce { w.cancel env r with inFlight := Registry.erase b.op.chunkId w.inFlight } :=
        h.take hh rfl hsub
      have h₁ := h₀.register (c := b.op.chunkId) hb (World.length_cancel env).symm
      split
      · exact h₁.update _ fun _ => calls_terminate
      · exact h₁.update _ fun _ => calls_run

/-- Every world step keeps `CancelOnce`. -/
theorem cancelOnce_step {e : WEvent} (h : CancelOnce w) (hsd : Sound w)
    (hs : w.step cfg maxReadSize quota ioBufferSize e = some w') : CancelOnce w' := by
  obtain ⟨-, he, rfl⟩ := World.step_eq_some hs
  cases e with
  | run renv op env => exact cancelOnce_run h hsd renv op env
  | cancelChunk c tv env => exact cancelOnce_cancelChunk h c tv env
  | cancelAll env => exact cancelOnce_cancelAll h env
  | rep i env e =>
    simp only [WEvent.enabled] at he
    split at he
    · simp only [Bool.and_eq_true] at he
      exact h.update i fun _ => calls_apply he.2
    · cases he
  | destroy i =>
    simp only [WEvent.enabled, Bool.and_eq_true] at he
    obtain ⟨sl, hsl⟩ := World.releasable_slot he.2
    show CancelOnce (w.destroy i)
    rw [hsd.destroy_eq hsl]
    exact h.modify (g := fun sl => { sl with destroyed := true }) (fun _ => ⟨rfl, rfl⟩) i rfl
      ((List.filter_sublist _).filterMap _)

theorem cancelOnce_reachable (h : WReachable cfg maxReadSize quota ioBufferSize w) : CancelOnce w := by
  induction h with
  | init => exact ⟨fun _ _ h => (by cases h), fun _ h => (by cases h), List.nodup_nil⟩
  | step hr hs ih => exact cancelOnce_step ih (sound_reachable hr) hs

/-- Over every interleaving of `Run`, `CancelChunkReplication`, `CancelAll`, the replicators'
own events and their destructors, every replicator has `Cancel()` called at most once, and none
while the registry still points to it. -/
theorem cancel_at_most_once (h : WReachable cfg maxReadSize quota ioBufferSize w) {r : Nat}
    {sl : Slot} (hr : w.slots[r]? = some sl) :
    sl.rep.cancelCalls ≤ 1 ∧ (r ∈ w.held → sl.rep.cancelCalls = 0) := by
  have hc := cancelOnce_reachable h
  rw [hc.calls r sl hr]
  refine ⟨by split <;> omega, fun hh => ?_⟩
  obtain ⟨a, ha, hca⟩ := hc.fresh r hh
  cases hr.symm.trans ha
  rw [hca, if_neg (by decide)]

/-- Replicator `A` for chunk 1 waits for its buffers, and `Run` of a replicator `B` for chunk 1
pre-empts it: `A` has had its one `Cancel()`. -/
theorem cancel_at_most_once_preempted :
    let cfg : Cfg := ⟨false, CHUNKSIZE, false, fun _ => []⟩
    let renv : RunEnv := ⟨true, 0, true, false, true⟩
    let op : ReplicateChunkOp := ⟨1, 1, 1, 1, true, 20000, 0, 0, 0, 0, 0, 0, []⟩
    let env : Env := { Env.ok with getForDiskIo := false }
    let w := (World.init.run cfg kDefaultReplicationReadSize 67108864 4096 renv op env).run cfg
      kDefaultReplicationReadSize 67108864 4096 renv op env
    ∃ sl, WReachable cfg kDefaultReplicationReadSize 67108864 4096 w ∧ w.slots[0]? = some sl ∧
      sl.rep.cancelCalls = 1 ∧ (sl.rep.cancelCalls ≤ 1 ∧ (0 ∈ w.held → sl.rep.cancelCalls = 0)) := by
  intro cfg renv op env w
  have h1 := @WReachable.step cfg kDefaultReplicationReadSize 67108864 4096 _ _ (.run renv op env)
    .init rfl
  have h2 := WReachable.step (e := .run renv op env) h1 rfl
  obtain ⟨sl, hsl, hc⟩ := Option.map_eq_some'.mp
    (show (w.slots[0]?).map (·.rep.cancelCalls) = some 1 by decide)
  exact ⟨sl, h2, hsl, hc, cancel_at_most_once h2 hsl⟩

/-- A replicator the destructor may delete (its op answered and no close completion owed) is
owed no completion by the buffer manager, the peer, the store, `ChangeChunkVers` or the reader,
and any `Handle()` still posted for it is a cancel with nothing claimed. -/
theorem destroy_owes_nothing (h : WReachable cfg maxReadSize quota ioBufferSize w) {i : Nat}
    {sl : Slot} (hi : w.releasable i = true) (hsl : w.slots[i]? = some sl) :
    sl.rep.waiting = false ∧ sl.rep.peerOp = none ∧ sl.rep.storeWrite = false ∧
      sl.rep.changeVers = false ∧ sl.rep.readInFlight = false ∧ sl.rep.readerReads = 0 ∧
      sl.rep.readerClose = false ∧
      (sl.rep.posted = true → sl.rep.pendingCancel = true ∧ sl.rep.state = .kNone) := by
  have hd := disc_reachable (runsOk_reachable h hsl).1
  unfold World.releasable at hi
  rw [hsl] at hi
  simp only [Bool.and_eq_true, Bool.not_eq_true'] at hi
  obtain ⟨⟨-, ho⟩, hpcl⟩ := hi
  obtain ⟨⟨hw, hp, hs, hv, hr, hpc⟩, hk⟩ := hd.2.1 ho
  obtain ⟨-, hpos, hcl⟩ := hd.1.2.1
  have hn : sl.rep.readerReads = 0 := by
    by_contra hne
    simp [hpos (Nat.pos_of_ne_zero hne)] at hr
  refine ⟨hw, hp, hs, hv, hr, hn, ?_, fun hpo => ⟨hpc hpo, hk (.inl hpo)⟩⟩
  cases hc : sl.rep.readerClose
  · rfl
  · simp [(hcl hc hpcl).2] at hr

/-- A replicator that `Run` finds over quota answers at once, and may then be deleted. -/
theorem destroy_owes_nothing_overQuota :
    let cfg : Cfg := ⟨false, CHUNKSIZE, false, fun _ => []⟩
    let renv : RunEnv := ⟨true, 0, true, false, true⟩
    let op : ReplicateChunkOp := ⟨1, 1, 1, 1, true, 20000, 0, 0, 0, 0, 0, 0, []⟩
    let w := World.init.run cfg kDefaultReplicationReadSize 67108864 4096 renv op
      { Env.ok with overQuota := true }
    ∃ sl, WReachable cfg kDefaultReplicationReadSize 67108864 4096 w ∧ w.releasable 0 = true ∧
      w.slots[0]? = some sl ∧
      (sl.rep.waiting = false ∧ sl.rep.peerOp = none ∧ sl.rep.storeWrite = false ∧
        sl.rep.changeVers = false ∧ sl.rep.readInFlight = false ∧ sl.rep.readerReads = 0 ∧
        sl.rep.readerClose = false ∧
        (sl.rep.posted = true → sl.rep.pendingCancel = true ∧ sl.rep.state = .kNone)) := by
  intro cfg renv op w
  have h1 := @WReachable.step cfg kDefaultReplicationReadSize 67108864 4096 _ _
    (.run renv op { Env.ok with overQuota := true }) .init rfl
  exact ⟨_, h1, rfl, rfl, destroy_owes_nothing h1 (i := 0) rfl rfl⟩

end

end QfsReplicator
