import QfsReplicator.Lifecycle.Discipline

/-! # The staging chunk

`HandleStartDone` allocates the staging chunk (`AllocChunk`) and takes its file handle, and every
`WriteChunk` goes to that file. Nothing leads back to the start: once the size reply is in, the
peer is not asked for it again, `kStart` is not claimed again and no buffer wait begins. So a
replicator allocates at most once, holding no file (the `assert(! mFileHandle)` before
`AllocChunk`), and writes only after that, while it holds the file and is not cancelled.

`Phase` is that picture: before the allocation a replicator is `Fresh`, after it `Copying`. Every
handler keeps it and calls the chunk manager only as described (`ChunkCalls`), and so does every
step (`chunkCalls_step`).
-/

namespace QfsReplicator

/-- Before `AllocChunk`: nothing written, no file, not done, and nothing of the copy outstanding
or claimed. -/
def Fresh (s : Rep) : Prop :=
  s.writes = [] ∧ s.fileHandle = false ∧ s.done = false ∧ s.peerOp ≠ some .read ∧
    s.storeWrite = false ∧ s.readInFlight = false ∧ s.state ≠ .kRead

/-- After `AllocChunk`: no way back to the start, and a replicator that has not stopped the
process, is not cancelled and still owns its op holds the staging file. -/
def Copying (s : Rep) : Prop :=
  s.waiting = false ∧ s.peerOp ≠ some .metadata ∧ s.state ≠ .kStart ∧
    (s.dead = none → s.cancelFlag = false → s.owner = true → s.fileHandle = true)

/-- At most one `AllocChunk`: fresh before it, copying after it. -/
def Phase (s : Rep) : Prop := (s.allocs = [] ∧ Fresh s) ∨ (s.allocs.length = 1 ∧ Copying s)

/-- What a handler does to the staging chunk: it keeps the phase, allocates only for a
replicator that has not allocated and holds no file, and writes only for one that has
allocated, holds the file and is not cancelled. -/
def ChunkCalls (t s : Rep) : Prop :=
  Phase t ∧ (t.allocs ≠ s.allocs → s.allocs = [] ∧ s.fileHandle = false) ∧
    (t.writes ≠ s.writes → s.allocs ≠ [] ∧ s.fileHandle = true ∧ s.cancelFlag = false)

section

variable {s : Rep} {env : Env} {oc : Bool} {st : Int}

theorem ChunkCalls.of_phase {t : Rep} (hp : Phase t) (ha : t.allocs = s.allocs)
    (hw : t.writes = s.writes) : ChunkCalls t s :=
  ⟨hp, fun h => absurd ha h, fun h => absurd hw h⟩

theorem Phase.copying (hp : Phase s) (hc : s.allocs ≠ []) : s.allocs.length = 1 ∧ Copying s :=
  hp.resolve_left fun h => hc h.1

theorem Phase.fresh (hp : Phase s) (ha : s.allocs = []) : Fresh s := by
  rcases hp with ⟨-, hf⟩ | ⟨hl, -⟩
  · exact hf
  · simp [ha] at hl

/-- A claimed state fits the phase: `kStart` only before the allocation, `kRead` only after. -/
theorem Phase.claimed (hp : Phase s) :
    (s.state = .kRead → s.allocs ≠ []) ∧ (s.state = .kStart → s.allocs = []) := by
  rcases hp with ⟨ha, hf⟩ | ⟨hl, hc⟩
  · exact ⟨fun h => absurd h hf.2.2.2.2.2.2, fun _ => ha⟩
  · exact ⟨fun _ h => by simp [h] at hl, fun h => absurd h hc.2.2.1⟩

/-! ## Updates that keep the phase -/

theorem phase_handleReplicationDone (hp : Phase s) : Phase (s.handleReplicationDone st) := by
  rcases hp with ⟨ha, hw, -, hr⟩ | ⟨hl, hw, hm, hk, -⟩
  · exact .inl ⟨ha, hw, rfl, hr⟩
  · exact .inr ⟨hl, hw, hm, hk, fun _ _ h => nomatch h⟩

/-- Letting the file go with `mCancelFlag` set keeps the phase. -/
theorem phase_release (hp : Phase s) : Phase { s with cancelFlag := true, fileHandle := false } := by
  rcases hp with ⟨ha, hw, -, hr⟩ | ⟨hl, hc⟩
  · exact .inl ⟨ha, hw, rfl, hr⟩
  · exact .inr ⟨hl, hc.1, hc.2.1, hc.2.2.1, fun _ h => nomatch h⟩

theorem phase_unwait (hp : Phase s) : Phase { s with waiting := false } := by
  rcases hp with h | ⟨hl, -, hc⟩
  · exact .inl h
  · exact .inr ⟨hl, rfl, hc⟩

theorem phase_peerDone (hp : Phase s) : Phase { s with peerOp := none } := by
  rcases hp with ⟨ha, hw, hf, hd, -, hr⟩ | ⟨hl, hw, -, hc⟩
  · exact .inl ⟨ha, hw, hf, hd, nofun, hr⟩
  · exact .inr ⟨hl, hw, nofun, hc⟩

theorem phase_readDone (hp : Phase s) : Phase { s with readInFlight := false } := by
  rcases hp with ⟨ha, hw, hf, hd, hpr, hsw, -, hk⟩ | h
  · exact .inl ⟨ha, hw, hf, hd, hpr, hsw, rfl, hk⟩
  · exact .inr h

theorem phase_claim {inState : State} (hp : Phase s) (hk : inState = .kRead → s.allocs ≠ [])
    (hs : inState = .kStart → s.allocs = []) : Phase { s with state := inState } := by
  rcases hp with ⟨ha, hw, hf, hd, hpr, hsw, hri, -⟩ | ⟨hl, hw, hm, -, hh⟩
  · exact .inl ⟨ha, hw, hf, hd, hpr, hsw, hri, fun h => hk h ha⟩
  · exact .inr ⟨hl, hw, hm, fun h => by simp [hs h] at hl, hh⟩

theorem phase_unclaim (hp : Phase s) : Phase { s with state := .kNone } :=
  phase_claim hp nofun nofun

/-- A `die` leaves the phase, which asks for the file only of a replicator still running. -/
theorem phase_dead {d : Option String} (hp : Phase s) (hd : d = none → s.dead = none) :
    Phase { s with dead := d } := by
  rcases hp with h | ⟨hl, hw, hm, hk, hh⟩
  · exact .inl h
  · exact .inr ⟨hl, hw, hm, hk, fun h => hh (hd h)⟩

theorem phase_die {m : String} (hp : Phase s) : Phase (s.die m) :=
  phase_dead hp fun h => nomatch h

theorem enqueue_alive {inState : State} (h : (s.enqueue oc inState).dead = none) :
    s.dead = none := by
  unfold Rep.enqueue Rep.post Rep.die at h
  split_ifs at h <;> exact h

/-! ## The handlers -/

/-- `Terminate` makes no chunk call but `ChangeChunkVers`. -/
theorem terminate_frame : (s.terminate env st).writes = s.writes ∧ (s.terminate env st).allocs = s.allocs := by
  unfold Rep.terminate
  split
  · dsimp only
    split <;> exact ⟨rfl, rfl⟩
  · exact ⟨rfl, rfl⟩

theorem writes_read : (s.read env oc).writes = s.writes := by
  unfold Rep.read Rep.rsRead
  split
  · split
    · rfl
    · obtain ⟨_, -, _, _, _, h⟩ := s.enqueue_frame oc .kRead
      rw [h]
  · unfold Rep.directRead
    split
    · exact terminate_frame.1
    · rfl

theorem phase_terminate (hp : Phase s) : Phase (s.terminate env st) := by
  unfold Rep.terminate
  split
  · dsimp only
    split
    · exact hp
    · exact phase_handleReplicationDone hp
  · exact phase_handleReplicationDone hp

theorem chunkCalls_terminate (hp : Phase s) : ChunkCalls (s.terminate env st) s :=
  .of_phase (phase_terminate hp) terminate_frame.2 terminate_frame.1

/-- `Terminate` of a replicator that is not done answers the op. -/
theorem phase_terminate_undone (hd : s.done = false) (hl : s.allocs.length = 1)
    (hw : s.waiting = false) (hm : s.peerOp ≠ some .metadata) (hk : s.state ≠ .kStart) :
    Phase (s.terminate env st) := by
  unfold Rep.terminate
  rw [if_neg (by simp [hd])]
  exact .inr ⟨hl, hw, hm, hk, fun _ _ h => nomatch h⟩

theorem chunkCalls_cancelBase (hp : Phase s) : ChunkCalls (s.cancelBase env) s := by
  unfold Rep.cancelBase
  dsimp only
  split
  · exact .of_phase (phase_terminate (phase_unwait (phase_release hp))) terminate_frame.2
      terminate_frame.1
  · exact .of_phase (phase_release hp) rfl rfl

theorem chunkCalls_directRead (hp : Phase s) (hc : s.allocs ≠ []) :
    ChunkCalls (s.directRead env) s := by
  obtain ⟨hl, hw, hm, hk, hh⟩ := hp.copying hc
  unfold Rep.directRead
  split
  · exact chunkCalls_terminate (.inr ⟨hl, hw, hm, hk, hh⟩)
  · exact .of_phase (.inr ⟨hl, hw, by simp, hk, hh⟩) rfl rfl

theorem chunkCalls_enqueue {inState : State} (hp : Phase s) (hk : inState = .kRead → s.allocs ≠ [])
    (hs : inState = .kStart → s.allocs = []) : ChunkCalls (s.enqueue oc inState) s := by
  have ha : (s.enqueue oc inState).dead = none → s.dead = none := enqueue_alive
  obtain ⟨_, hst, _, _, _, h⟩ := s.enqueue_frame oc inState
  rw [h] at ha ⊢
  rcases hst with rfl | rfl
  · exact .of_phase (phase_dead hp ha) rfl rfl
  · exact .of_phase (phase_dead (phase_claim hp hk hs) ha) rfl rfl

theorem chunkCalls_read (hp : Phase s) (hc : s.allocs ≠ []) : ChunkCalls (s.read env oc) s := by
  unfold Rep.read Rep.rsRead
  split
  · split
    · exact .of_phase hp rfl rfl
    · exact chunkCalls_enqueue hp (fun _ => hc) nofun
  · exact chunkCalls_directRead hp hc

/-- A read issued right after the allocation: the allocation is the only chunk call. -/
theorem chunkCalls_of_read {v : Rep} (hv : Phase v) (hc : v.allocs ≠ [])
    (ha : v.allocs ≠ s.allocs → s.allocs = [] ∧ s.fileHandle = false) (hw : v.writes = s.writes) :
    ChunkCalls (v.read env oc) s := by
  obtain ⟨hp', ha', -⟩ : ChunkCalls (v.read env oc) v := chunkCalls_read hv hc
  have hva : (v.read env oc).allocs = v.allocs := by
    by_contra h
    exact hc (ha' h).1
  exact ⟨hp', fun h => ha (hva ▸ h), fun h => absurd (writes_read.trans hw) h⟩

/-- `HandleStartDone` allocates only for a replicator that has not, holding no file; a failed
allocation answers the op, a successful one takes the file and reads. -/
theorem chunkCalls_handleStartDone (hp : Phase s)
    (ha : s.cancelFlag = false → 0 ≤ s.mdStatus →
      s.allocs = [] ∧ s.waiting = false ∧ s.peerOp ≠ some .metadata ∧ s.state ≠ .kStart) :
    ChunkCalls (s.handleStartDone env oc) s := by
  unfold Rep.handleStartDone
  split
  · exact chunkCalls_terminate hp
  · rename_i hcm
    simp only [Bool.or_eq_true, decide_eq_true_eq, not_or, Bool.not_eq_true] at hcm
    obtain ⟨ha, hw, hm, hk⟩ := ha hcm.1 (by omega)
    have hf := hp.fresh ha
    have hl : (s.allocs ++ [if 0 ≤ s.op.targetVersion then s.op.targetVersion else s.mdChunkVersion]).length = 1 := by
      simp [ha]
    dsimp only
    split
    · exact chunkCalls_terminate hp
    · split
      · exact ⟨phase_terminate_undone hf.2.2.1 hl hw hm hk, fun _ => ⟨ha, hf.2.1⟩,
          fun h => absurd terminate_frame.1 h⟩
      · split
        · exact ⟨.inr ⟨hl, hw, hm, hk, fun h => nomatch h⟩, fun _ => ⟨ha, hf.2.1⟩,
            fun h => absurd rfl h⟩
        · exact chunkCalls_of_read (.inr ⟨hl, hw, hm, hk, fun _ _ _ => rfl⟩) (by simp)
            (fun _ => ⟨ha, hf.2.1⟩) rfl

theorem chunkCalls_writeChunk (hp : Phase s) (hc : s.allocs ≠ []) (hf : s.fileHandle = true)
    (hcf : s.cancelFlag = false) : ChunkCalls (s.writeChunk env) s := by
  obtain ⟨hl, hcp⟩ := hp.copying hc
  unfold Rep.writeChunk
  dsimp only
  split
  · exact ⟨phase_terminate (.inr ⟨hl, hcp⟩), fun h => absurd terminate_frame.2 h,
      fun _ => ⟨hc, hf, hcf⟩⟩
  · exact ⟨.inr ⟨hl, hcp⟩, fun h => absurd rfl h, fun _ => ⟨hc, hf, hcf⟩⟩

theorem chunkCalls_alignWrite (hp : Phase s) (hc : s.allocs ≠ []) (hf : s.fileHandle = true)
    (hcf : s.cancelFlag = false) : ChunkCalls (s.alignWrite.writeChunk env) s := by
  unfold Rep.alignWrite
  dsimp only
  split
  · split <;> exact chunkCalls_writeChunk hp hc hf hcf
  · exact chunkCalls_writeChunk hp hc hf hcf

theorem chunkCalls_readDoneFinish (hp : Phase s) (hc : s.allocs ≠ []) (hf : s.fileHandle = true)
    (hcf : s.cancelFlag = false) : ChunkCalls (s.readDoneFinish env) s := by
  obtain ⟨hl, hcp⟩ := hp.copying hc
  unfold Rep.readDoneFinish
  dsimp only
  split
  · exact chunkCalls_terminate (.inr ⟨hl, hcp⟩)
  · split
    · exact .of_phase (phase_die hp) rfl rfl
    · exact chunkCalls_alignWrite hp hc hf hcf

theorem chunkCalls_handleReadDone (hp : Phase s)
    (hc : s.cancelFlag = false → s.allocs ≠ [] ∧ s.fileHandle = true) :
    ChunkCalls (s.handleReadDone env oc) s := by
  unfold Rep.handleReadDone
  split
  · exact chunkCalls_terminate hp
  · rename_i hcf
    have hcf : s.cancelFlag = false := by simpa using hcf
    obtain ⟨hc, hf⟩ := hc hcf
    dsimp only
    split
    · split
      · exact chunkCalls_read hp hc
      · exact chunkCalls_readDoneFinish hp hc hf hcf
    · split <;> exact chunkCalls_readDoneFinish hp hc hf hcf

theorem chunkCalls_handleWriteDone {n : Int} (hp : Phase s) (hc : s.allocs ≠ [])
    (hf : s.cancelFlag = false → s.fileHandle = true) :
    ChunkCalls (s.handleWriteDone env oc st n) s := by
  obtain ⟨hl, hcp⟩ := hp.copying hc
  have hp' : Phase { s with storeWrite := false } := .inr ⟨hl, hcp⟩
  unfold Rep.handleWriteDone
  dsimp only
  split
  · exact chunkCalls_terminate hp'
  · rename_i hcs
    have hcf : s.cancelFlag = false := by simpa using (not_or.mp hcs).1
    split
    · exact chunkCalls_handleReadDone hp' fun _ => ⟨hc, hf hcf⟩
    · exact chunkCalls_read hp' hc

theorem chunkCalls_handleCompletion {md : Bool} (hp : Phase s)
    (hs : md = true → s.cancelFlag = false → 0 ≤ s.mdStatus →
      s.allocs = [] ∧ s.waiting = false ∧ s.peerOp ≠ some .metadata)
    (hr : md = false → s.cancelFlag = false → s.allocs ≠ [] ∧ s.fileHandle = true) :
    ChunkCalls (s.handleCompletion env oc md) s := by
  unfold Rep.handleCompletion
  dsimp only
  split
  · exact .of_phase hp rfl rfl
  · split
    · rename_i hmd
      exact chunkCalls_handleStartDone (phase_unclaim hp) fun h1 h2 =>
        let ⟨ha, hw, hm⟩ := hs hmd h1 h2
        ⟨ha, hw, hm, nofun⟩
    · rename_i hmd
      exact chunkCalls_handleReadDone (phase_unclaim hp) (hr (by simpa using hmd))

theorem chunkCalls_rsStart (hp : Phase s) (ha : s.allocs = []) : ChunkCalls (s.rsStart oc env) s := by
  unfold Rep.rsStart
  split
  · exact .of_phase hp rfl rfl
  · dsimp only
    split
    · exact chunkCalls_handleCompletion hp (fun _ _ h => absurd h (show ¬(0 : Int) ≤ -EINVAL by decide))
        nofun
    · exact chunkCalls_enqueue hp nofun fun _ => ha

theorem chunkCalls_handleStart (hp : Phase s) (ha : s.allocs = []) (hw : s.waiting = false)
    (hm : s.peerOp ≠ some .metadata) : ChunkCalls (s.handleStart env oc) s := by
  rcases s.handleStart_cases env oc with h | ⟨_, _, h⟩ <;> rw [h]
  · exact .of_phase (phase_die hp) rfl rfl
  · exact chunkCalls_handleCompletion hp (fun _ _ _ => ⟨ha, hw, hm⟩) nofun

theorem chunkCalls_handleRead (hp : Phase s) (hc : s.allocs ≠ [])
    (hf : s.cancelFlag = false → s.fileHandle = true) : ChunkCalls (s.handleRead env oc) s := by
  obtain ⟨hl, hcp⟩ := hp.copying hc
  unfold Rep.handleRead
  split
  · exact chunkCalls_handleCompletion hp nofun fun _ h => ⟨hc, hf h⟩
  · dsimp only
    split
    · exact chunkCalls_handleCompletion (.inr ⟨hl, hcp⟩) nofun fun _ h => ⟨hc, hf h⟩
    · exact .of_phase (.inr ⟨hl, hcp⟩) rfl rfl

theorem chunkCalls_doneFinish {cfg : Cfg} {inOffset ps : Int} {buf : Option (List UInt8)}
    {ok : Bool} (hp : Phase s) (hc : s.allocs ≠ []) (hf : s.cancelFlag = false → s.fileHandle = true) :
    ChunkCalls (s.doneFinish cfg env oc st inOffset buf ok ps) s := by
  rcases s.doneFinish_cases cfg env oc st inOffset buf ok ps with ⟨_, h⟩ | h | ⟨_, h⟩ <;> rw [h]
  · exact .of_phase (phase_die hp) rfl rfl
  · exact .of_phase hp rfl rfl
  · exact chunkCalls_handleCompletion hp nofun fun _ h => ⟨hc, hf h⟩

theorem chunkCalls_doneRead {cfg : Cfg} {inOffset : Int} {b : List UInt8} (hp : Phase s)
    (hc : s.allocs ≠ []) (hf : s.cancelFlag = false → s.fileHandle = true) :
    ChunkCalls (s.doneRead cfg env oc inOffset b) s := by
  unfold Rep.doneRead Rep.doneChecksums
  dsimp only
  repeat' split
  all_goals first
    | exact chunkCalls_doneFinish hp hc hf
    | exact chunkCalls_handleRead hp hc hf

/-- A reader `Done` writes only through a `Read` in flight. -/
theorem chunkCalls_completionDone {cfg : Cfg} {inOffset inSize : Int} {buf : Option (List UInt8)}
    (hp : Phase s)
    (hr : s.readInFlight = true → s.allocs ≠ [] ∧ (s.cancelFlag = false → s.fileHandle = true)) :
    ChunkCalls (s.completionDone cfg env oc st inOffset inSize buf) s := by
  unfold Rep.completionDone
  by_cases h1 : buf.isSome ∧ (inOffset < 0 ∨ inSize > s.rdNumBytes ∨ s.readInFlight = false)
  · rw [if_pos h1]; exact .of_phase (phase_die hp) rfl rfl
  rw [if_neg h1]
  by_cases h2 : s.pendingClose = true
  · rw [if_pos h2]; split <;> exact .of_phase hp rfl rfl
  rw [if_neg h2]
  by_cases h3 : (!s.readInFlight) = true
  · rw [if_pos h3]; split <;> exact .of_phase hp rfl rfl
  rw [if_neg h3]
  obtain ⟨hc, hf⟩ := hr (by simpa using h3)
  have hp' := phase_readDone hp
  dsimp only
  split
  · exact .of_phase hp' rfl rfl
  · split
    · split
      · exact chunkCalls_doneRead hp' hc hf
      · exact chunkCalls_doneFinish hp' hc hf
    · exact chunkCalls_doneFinish hp' hc hf

/-- `HandleCancel` cancels and lets the file go before it fails the claimed transition. -/
theorem chunkCalls_handleCancel (hp : Phase s) : ChunkCalls (s.handleCancel env oc) s := by
  unfold Rep.handleCancel
  dsimp only
  by_cases h1 : env.shutdownUnref = true ∧ s.pendingClose = true
  · rw [if_pos h1]; exact .of_phase hp rfl rfl
  rw [if_neg h1]
  by_cases h2 : s.queued = true
  · rw [if_pos h2]; exact .of_phase hp rfl rfl
  rw [if_neg h2]
  by_cases hw : s.waiting = true
  · rw [if_pos (.inl hw)]
    exact chunkCalls_cancelBase hp
  rw [cancelBase_of_waiting_false
    (s := { s with readerRegistered := false, readerReads := 0, readerClose := false })
    (by simpa using hw)]
  dsimp only
  split
  · exact .of_phase (phase_release hp) rfl rfl
  · split
    · unfold Rep.handleReadDone
      rw [if_pos rfl]
      exact .of_phase (phase_terminate (phase_readDone (phase_release hp))) terminate_frame.2
        terminate_frame.1
    · unfold Rep.handleStartDone
      rw [if_pos rfl]
      exact .of_phase (phase_terminate (phase_release hp)) terminate_frame.2 terminate_frame.1

theorem chunkCalls_handle (hp : Phase s) (hd : s.dead = none) (hm : s.peerOp ≠ some .metadata)
    (hq : s.pendingCancel = false → s.waiting = false ∧ (s.state ≠ .kNone → s.owner = true)) :
    ChunkCalls (s.handle env oc) s := by
  unfold Rep.handle
  split
  · exact chunkCalls_handleCancel hp
  · rename_i hpc
    obtain ⟨hw, ho⟩ := hq (by simpa using hpc)
    split
    · rename_i hk
      exact chunkCalls_handleStart hp (hp.claimed.2 hk) hw hm
    · rename_i hk
      have hc := hp.claimed.1 hk
      exact chunkCalls_handleRead hp hc fun h => (hp.copying hc).2.2.2.2 hd h (ho (by simp [hk]))
    · exact .of_phase (phase_die hp) rfl rfl

theorem chunkCalls_cancel (hp : Phase s) : ChunkCalls (s.cancel env) s := by
  unfold Rep.cancel Rep.rsCancel
  dsimp only
  split
  · split
    · exact .of_phase hp rfl rfl
    · exact chunkCalls_enqueue hp hp.claimed.1 hp.claimed.2
  · exact chunkCalls_cancelBase hp

theorem chunkCalls_start {cfg : Cfg} (hp : Phase s) (ha : s.allocs = []) :
    ChunkCalls (s.start cfg env oc) s := by
  unfold Rep.start
  split
  · exact chunkCalls_rsStart hp ha
  · obtain ⟨hw', hf, hd, -, hr⟩ := hp.fresh ha
    exact .of_phase (.inl ⟨ha, hw', hf, hd, nofun, hr⟩) rfl rfl

theorem phase_create {op : ReplicateChunkOp} {ct lv : Bool} {rsz : Int} :
    Phase (Rep.create op ct lv rsz) :=
  .inl ⟨rfl, rfl, rfl, rfl, nofun, rfl, rfl, nofun⟩

theorem chunkCalls_run {cfg : Cfg} (hp : Phase s) (ha : s.allocs = []) :
    ChunkCalls (s.run cfg env) s := by
  unfold Rep.run
  dsimp only
  split
  · exact chunkCalls_terminate hp
  · split
    · exact chunkCalls_start hp ha
    · exact .of_phase (.inl ⟨ha, hp.fresh ha⟩) rfl rfl

/-- Every step keeps the phase and calls the chunk manager only as `ChunkCalls` allows. -/
theorem chunkCalls_step {cfg : Cfg} {e : Event} {s' : Rep} (h : Disc s) (hp : Phase s)
    (hs : step cfg env e s = some s') : ChunkCalls s' s := by
  obtain ⟨hd, he, rfl⟩ := step_eq_some hs
  obtain ⟨⟨hmo, -, -, -⟩, hb⟩ := id h
  have held (hc : s.allocs ≠ []) (ho : s.owner = true) : s.cancelFlag = false → s.fileHandle = true :=
    fun hcf => (hp.copying hc).2.2.2.2 hd hcf ho
  have reading (hri : s.readInFlight = true) :
      s.allocs ≠ [] ∧ (s.cancelFlag = false → s.fileHandle = true) := by
    have hc : s.allocs ≠ [] := fun ha => by simp [(hp.fresh ha).2.2.2.2.2.1] at hri
    exact ⟨hc, held hc (owner_of_busy hb fun q => by simp [q.2.2.2.2.1] at hri)⟩
  have posted (hrs : s.rs = true) (hpost : s.posted = true) : s.peerOp ≠ some .metadata ∧
      (s.pendingCancel = false → s.waiting = false ∧ (s.state ≠ .kNone → s.owner = true)) := by
    refine ⟨by simp [(mode_recovery hmo hrs).1], fun hpc => ?_⟩
    obtain ⟨hq, hk⟩ := hb.2.2.2.2.2.2 hpost hpc
    refine ⟨hq.1, fun _ => ?_⟩
    cases ho : s.owner
    · exact absurd ((hb.1 ho).2 (.inl hpost)) hk
    · rfl
  cases e with
  | handleInline =>
    have hpost : s.posted = true := by simp [Rep.posted, show s.runNow = true from he]
    obtain ⟨hm, hq⟩ := posted (rs_of_posted h hpost) hpost
    exact chunkCalls_handle (s := { s with runNow := false }) hp hd hm hq
  | handleQueued =>
    simp only [Event.enabled, Bool.and_eq_true, Bool.not_eq_true'] at he
    have hpost : s.posted = true := by simp [Rep.posted, he.2]
    obtain ⟨hm, hq⟩ := posted (rs_of_posted h hpost) hpost
    exact chunkCalls_handle (s := { s with queued := false }) hp hd hm hq
  | granted =>
    simp only [Event.enabled, Bool.and_eq_true, Bool.not_eq_true'] at he
    have ha : s.allocs = [] := by
      by_contra hc
      simp [(hp.copying hc).2.1] at he
    exact chunkCalls_start (s := { s with waiting := false }) (phase_unwait hp) ha
  | metadataDone =>
    simp only [Event.enabled, Bool.and_eq_true, beq_iff_eq] at he
    have ha : s.allocs = [] := by
      by_contra hc
      exact (hp.copying hc).2.2.1 he.2
    obtain ⟨hrs, hr⟩ := ready_peerDone h (by simp [he.2])
    have hk : s.state ≠ .kStart := by
      rw [(mode_direct hmo hrs).1]
      nofun
    exact chunkCalls_handleStartDone (phase_peerDone hp) fun _ _ => ⟨ha, hr.2.1.1, nofun, hk⟩
  | readDone =>
    simp only [Event.enabled, Bool.and_eq_true, beq_iff_eq] at he
    have hc : s.allocs ≠ [] := fun ha => (hp.fresh ha).2.2.2.1 he.2
    have ho := owner_of_busy hb fun q => by simp [q.2.1] at he
    exact chunkCalls_handleReadDone (phase_peerDone hp) fun hcf => ⟨hc, held hc ho hcf⟩
  | writeDone =>
    simp only [Event.enabled, Bool.and_eq_true] at he
    have hc : s.allocs ≠ [] := fun ha => by simp [(hp.fresh ha).2.2.2.2.1] at he
    exact chunkCalls_handleWriteDone hp hc (held hc (owner_of_busy hb fun q => by simp [q.2.2.1] at he))
  | changeVersDone => exact .of_phase (phase_handleReplicationDone hp) rfl rfl
  | cancel => exact chunkCalls_cancel hp
  | readerDone =>
    exact chunkCalls_completionDone (s := { s with readerReads := s.readerReads - 1 }) hp reading
  | closeDone => exact chunkCalls_completionDone (s := { s with readerClose := false }) hp reading
  | readerNote => exact chunkCalls_completionDone hp reading

end

/-! ## Over whole runs -/

section

variable {cfg : Cfg} {maxReadSize quota ioBufferSize : Int} {Ok : Rep → Event → Prop} {s : Rep}

theorem phase_reachable (h : Reachable cfg (Admitted maxReadSize quota ioBufferSize) Ok s) :
    Phase s := by
  induction h with
  | run env h0 =>
    obtain ⟨op, ct, lv, rsz, rfl⟩ := admitted_fresh h0
    exact (chunkCalls_run (s := Rep.create op ct lv rsz) phase_create rfl).1
  | step hr _ hs ih => exact (chunkCalls_step (disc_reachable hr) ih hs).1

/-- A replicator run from `Run` calls `AllocChunk` at most once, and issues no `WriteChunk`
before it. -/
theorem allocChunk_at_most_once (h : Reachable cfg (Admitted maxReadSize quota ioBufferSize) Ok s) :
    s.allocs.length ≤ 1 ∧ (s.writes ≠ [] → s.allocs.length = 1) := by
  rcases phase_reachable h with ⟨ha, hf⟩ | ⟨hl, -⟩
  · exact ⟨by simp [ha], fun hw => absurd hf.1 hw⟩
  · exact ⟨hl.le, fun _ => hl⟩

theorem allocChunk_at_most_once_one_byte :
    let cfg : Cfg := ⟨false, 0, false, fun _ => []⟩
    let op : ReplicateChunkOp := ⟨1, 2, 1, 2, true, 20000, 0, 0, 0, 0, 0, 0, []⟩
    let s := (Event.readDone 0 [7] []).apply cfg Env.ok ((Event.metadataDone 0 1 1).apply cfg Env.ok
      ((Rep.create op false true 0).run cfg Env.ok))
    Reachable cfg (Admitted 0 0 0) (fun _ _ => True) s ∧ s.writes ≠ [] ∧
      s.allocs.length ≤ 1 ∧ (s.writes ≠ [] → s.allocs.length = 1) := by
  intro cfg op s
  have h1 := @Reachable.step cfg (Admitted 0 0 0) (fun _ _ => True) _ _ Env.ok
    (.metadataDone 0 1 1) (.run Env.ok ⟨⟨true, 0, true, true, true⟩, op, rfl⟩) trivial rfl
  have h2 := @Reachable.step cfg (Admitted 0 0 0) (fun _ _ => True) _ _ Env.ok
    (.readDone 0 [7] []) h1 trivial rfl
  exact ⟨h2, by decide, allocChunk_at_most_once h2⟩

/-- The step that calls `AllocChunk` starts from a replicator that has not allocated and holds
no file, as `HandleStartDone` asserts, and leaves it with the one allocation. -/
theorem allocChunk_without_file {env : Env} {e : Event} {s' : Rep}
    (h : Reachable cfg (Admitted maxReadSize quota ioBufferSize) Ok s)
    (hs : step cfg env e s = some s') (ha : s'.allocs ≠ s.allocs) :
    s.allocs = [] ∧ s.fileHandle = false ∧ s'.allocs.length = 1 := by
  obtain ⟨hp', ha', -⟩ := chunkCalls_step (disc_reachable h) (phase_reachable h) hs
  obtain ⟨h0, hf⟩ := ha' ha
  exact ⟨h0, hf, (hp'.copying fun h' => ha (h'.trans h0.symm)).1⟩

theorem allocChunk_without_file_one_byte :
    let cfg : Cfg := ⟨false, 0, false, fun _ => []⟩
    let op : ReplicateChunkOp := ⟨1, 2, 1, 2, true, 20000, 0, 0, 0, 0, 0, 0, []⟩
    let s := (Rep.create op false true 0).run cfg Env.ok
    let s' := (Event.metadataDone 0 1 1).apply cfg Env.ok s
    Reachable cfg (Admitted 0 0 0) (fun _ _ => True) s ∧
      step cfg Env.ok (.metadataDone 0 1 1) s = some s' ∧ s'.allocs ≠ s.allocs ∧
      s.allocs = [] ∧ s.fileHandle = false ∧ s'.allocs.length = 1 := by
  intro cfg op s s'
  have h0 : Reachable cfg (Admitted 0 0 0) (fun _ _ => True) s :=
    .run Env.ok ⟨⟨true, 0, true, true, true⟩, op, rfl⟩
  have hs : step cfg Env.ok (.metadataDone 0 1 1) s = some s' := rfl
  have ha : s'.allocs ≠ s.allocs := by decide
  exact ⟨h0, hs, ha, allocChunk_without_file h0 hs ha⟩

/-- Every `WriteChunk` is issued by a replicator that has allocated the chunk, holds its file
and is not cancelled. -/
theorem writeChunk_holds_file {env : Env} {e : Event} {s' : Rep}
    (h : Reachable cfg (Admitted maxReadSize quota ioBufferSize) Ok s)
    (hs : step cfg env e s = some s') (hw : s'.writes ≠ s.writes) :
    s.allocs.length = 1 ∧ s.fileHandle = true ∧ s.cancelFlag = false := by
  have hp := phase_reachable h
  obtain ⟨-, -, hw'⟩ := chunkCalls_step (disc_reachable h) hp hs
  obtain ⟨hc, hf, hcf⟩ := hw' hw
  exact ⟨(hp.copying hc).1, hf, hcf⟩

theorem writeChunk_holds_file_one_byte :
    let cfg : Cfg := ⟨false, 0, false, fun _ => []⟩
    let op : ReplicateChunkOp := ⟨1, 2, 1, 2, true, 20000, 0, 0, 0, 0, 0, 0, []⟩
    let s := (Event.metadataDone 0 1 1).apply cfg Env.ok ((Rep.create op false true 0).run cfg Env.ok)
    let s' := (Event.readDone 0 [7] []).apply cfg Env.ok s
    Reachable cfg (Admitted 0 0 0) (fun _ _ => True) s ∧
      step cfg Env.ok (.readDone 0 [7] []) s = some s' ∧ s'.writes ≠ s.writes ∧
      s.allocs.length = 1 ∧ s.fileHandle = true ∧ s.cancelFlag = false := by
  intro cfg op s s'
  have h1 : Reachable cfg (Admitted 0 0 0) (fun _ _ => True) s :=
    .step (.run Env.ok ⟨⟨true, 0, true, true, true⟩, op, rfl⟩) trivial (e := .metadataDone 0 1 1) rfl
  have hs : step cfg Env.ok (.readDone 0 [7] []) s = some s' := rfl
  have hw : s'.writes ≠ s.writes := by decide
  exact ⟨h1, hs, hw, writeChunk_holds_file h1 hs hw⟩

end

end QfsReplicator
