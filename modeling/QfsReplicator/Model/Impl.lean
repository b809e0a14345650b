import QfsReplicator.Model.State

/-! # `ReplicatorImpl`: the shared state machine

The handlers both replicators run: the final response, `Terminate`, the base `Cancel`, the size
reply, the read completion with its checksum-aligned write, and the write completion. `Read` is
virtual; the recovery replicator's `Read` only claims `kRead` and posts `Handle()` (`Enqueue`).
When `Enqueue` runs `Handle()` inline, the model sets `runNow` and the step relation runs
`Handle()` as the very next step: every caller of `Enqueue` returns right after it.

`oc` is whether the calling thread is the replicator's client thread.
-/

namespace QfsReplicator

/-- `(int)mState`. -/
def State.toInt : State → Int
  | .kNone => 0
  | .kStart => 1
  | .kRead => 2

namespace Rep

/-- `ReplicatorImpl::HandleReplicationDone`: the op's final status and version, the release of
the staging file if the replicator still holds it, the failure counter, and `SubmitOpResponse`. -/
def handleReplicationDone (status : Int) (s : Rep) : Rep :=
  let s := s.touchOwner
  let opStatus := if status ≥ 0 then 0 else status
  let opChunkVersion := if !s.cancelFlag && decide (status ≥ 0) then s.chunkVersion else -1
  { s with
    opStatus := opStatus
    fileHandle := false
    releases := if s.fileHandle then s.releases ++ [(status, s.cancelFlag)] else s.releases
    opChunkVersion := opChunkVersion
    ctrs := if opStatus < 0 ∨ s.cancelFlag then
        s.ctrs.bumpFailed s.op.locationValid s.cancelFlag
      else s.ctrs
    owner := false
    responses := s.responses ++ [(opStatus, opChunkVersion)] }

/-- `ReplicatorImpl::Terminate`: a finished, uncancelled copy changes the chunk version
(`ChangeChunkVers`); everything else ends with a negative status. -/
def terminate (env : Env) (status : Int) (s : Rep) : Rep :=
  if s.done && !s.cancelFlag then
    let s := { s with versStarts := s.versStarts + 1 }
    if env.changeVersStatus = 0 then { s with changeVers := true }
    else s.handleReplicationDone env.changeVersStatus
  else s.handleReplicationDone (if status < 0 then status else if status = 0 then -1 else -status)

/-- `ReplicatorImpl::Cancel`. -/
def cancelBase (env : Env) (s : Rep) : Rep :=
  let s := { s with cancelFlag := true }
  let s := { s with
    fileHandle := false
    releases := if s.fileHandle then s.releases ++ [(-ECANCELED, s.cancelFlag)] else s.releases }
  if s.waiting then terminate env ECANCELED { s with waiting := false } else s

/-- `ReplicatorImpl::Read`: finish at the end of the chunk, otherwise ask the peer for the next
`min(mChunkSize - mOffset, kDefaultReplicationReadSize)` bytes. -/
def directRead (env : Env) (s : Rep) : Rep :=
  if s.offset ≥ s.chunkSize then
    let d := decide (s.offset = s.chunkSize)
    terminate env (if d then 0 else - EIO) { s.touchOwner with done := d }
  else
    { s with
      skipVerify := if s.offset % CHECKSUM_BLOCKSIZE ≠ 0 then false else s.skipVerify
      rdChecksum := []
      rdStatus := 0
      rdOffset := s.offset
      rdNumBytesIO := 0
      rdNumBytes := min (s.chunkSize - s.offset) kDefaultReplicationReadSize
      rdBuf := []
      peerOp := some .read }

/-- The hand-off at the end of `Enqueue`: queue for the client thread, or run inline. -/
def post (oc : Bool) (s : Rep) : Rep :=
  if s.clientThread && !oc then { s with queued := true } else { s with runNow := true }

/-- `RSReplicatorImpl::Enqueue`: claim `inState` (with a cancel pending, re-post the current
state) and post `Handle()`. -/
def enqueue (oc : Bool) (inState : State) (s : Rep) : Rep :=
  if s.pendingCancel then
    if s.state ≠ inState then s.die "recovery: invalid cancel enqueue" else s.post oc
  else if s.state ≠ .kNone then
    s.die ("recovery: invalid state transtion from: " ++ toString s.state.toInt ++ " to: " ++
      toString inState.toInt ++ " pending: " ++ (if s.queued then "1" else "0"))
  else { s with state := inState }.post oc

/-- `Enqueue` keeps the state or claims `inState`, and touches nothing else but the hand-off
flags and `die`. -/
theorem enqueue_frame (s : Rep) (oc : Bool) (inState : State) :
    ∃ st, (st = s.state ∨ st = inState) ∧ ∃ q rn d,
      s.enqueue oc inState = { s with state := st, queued := q, runNow := rn, dead := d } := by
  unfold enqueue post die
  repeat' split
  all_goals exact ⟨_, by first | exact .inl rfl | exact .inr rfl, _, _, _, rfl⟩

/-- `RSReplicatorImpl::Read`: ignored while a cancel is pending. -/
def rsRead (oc : Bool) (s : Rep) : Rep :=
  if s.pendingCancel then s else s.enqueue oc .kRead

/-- The virtual `Read()`. -/
def read (env : Env) (oc : Bool) (s : Rep) : Rep :=
  if s.rs then s.rsRead oc else s.directRead env

@[simp] theorem read_of_direct {s : Rep} (h : s.rs = false) (env : Env) (oc : Bool) :
    s.read env oc = s.directRead env := by
  simp [read, h]

/-- `ReplicatorImpl::HandleStartDone`: take the size and version from the size reply, allocate
the staging chunk at version 0, and start reading; a null file handle from a successful
`AllocChunk` stops the process. -/
def handleStartDone (env : Env) (oc : Bool) (s : Rep) : Rep :=
  if s.cancelFlag || decide (s.mdStatus < 0) then
    s.terminate env (if s.cancelFlag then ECANCELED else s.mdStatus)
  else
    let s := { s with chunkSize := s.mdChunkSize, chunkVersion := s.mdChunkVersion }
    if s.chunkSize < 0 ∨ s.chunkSize > CHUNKSIZE then s.terminate env EINVAL
    else
      let s := s.touchOwner
      let s := { s with allocs := s.allocs ++
        [if 0 ≤ s.op.targetVersion then s.op.targetVersion else s.chunkVersion] }
      if env.allocStatus < 0 then
        let s := { s with opStatusMsg := if env.allocStatus = -EEXIST ∧ s.owner then
          "readable chunk with target version already exists" else s.opStatusMsg }
        s.terminate env env.allocStatus
      else if env.allocNullHandle then s.die "replication: invalid null file handle"
      else { s with fileHandle := true }.read env oc

/-- The checksum-aligned `mWriteOp` that `HandleReadDone` builds from `mReadOp`. A read that
ends the chunk past a whole block keeps its trailing partial block, with the last checksum,
in `mReadOp` as a read of its own at the next offset. -/
def alignWrite (s : Rep) : Rep :=
  let numRd : Int := s.rdBuf.length
  let tail := numRd % CHECKSUM_BLOCKSIZE
  let s := { s with wrNumBytes := numRd, wrOffset := s.offset, wrChecksums := s.rdChecksum }
  if numRd > CHECKSUM_BLOCKSIZE then
    let s := { s with wrNumBytes := numRd - tail }
    if tail > 0 ∧ s.offset + numRd = s.chunkSize then
      let k := (numRd - tail).toNat
      { s with
        wrBuf := s.rdBuf.take k
        rdBuf := s.rdBuf.drop k
        rdOffset := s.offset + (numRd - tail)
        rdNumBytesIO := tail
        rdNumBytes := tail
        rdChecksum := s.rdChecksum.getLast?.toList
        wrChecksums := s.wrChecksums.dropLast }
    else { s with wrBuf := s.rdBuf, rdBuf := [] }
  else { s with wrBuf := s.rdBuf, rdBuf := [] }

/-- `gChunkManager.WriteChunk(&mWriteOp, ...)`; a failed submission ends the replication. -/
def writeChunk (env : Env) (s : Rep) : Rep :=
  let s := { s with writes := s.writes ++ [WriteCall.mk s.wrOffset s.wrNumBytes s.wrBuf s.wrChecksums] }
  if env.writeStatus < 0 then s.terminate env env.writeStatus else { s with storeWrite := true }

/-- The part of `HandleReadDone` after the status is settled: finish on an error or at the end
of the chunk, check the completion, and write. -/
def readDoneFinish (env : Env) (s : Rep) : Rep :=
  let numRd : Int := s.rdBuf.length
  if s.rdStatus < 0 ∨ s.chunkSize ≤ s.offset then
    let d := decide (s.offset = s.chunkSize ∧ 0 ≤ s.rdStatus)
    { s with done := d }.terminate env (if d then 0 else s.rdStatus)
  else if s.offset % CHECKSUM_BLOCKSIZE ≠ 0 ∨
      (s.rdChecksum ≠ [] ∧ (s.rdChecksum.length : Int) ≠ numBlocks numRd) then
    s.die "replicator: invalid read completion"
  else s.alignWrite.writeChunk env

/-- `ReplicatorImpl::HandleReadDone`. A `-EBADCKSUM` on a read sent without disk verification
is read again with it; a short read before the end of the chunk is `-EINVAL`. -/
def handleReadDone (env : Env) (oc : Bool) (s : Rep) : Rep :=
  if s.cancelFlag then s.terminate env ECANCELED
  else
    let numRd : Int := s.rdBuf.length
    if s.rdStatus < 0 then
      if s.skipVerify ∧ s.rdStatus = -EBADCKSUM then
        { s with skipVerify := false, retries := s.retries + 1 }.read env oc
      else s.readDoneFinish env
    else if numRd < s.rdNumBytes ∧ s.offset + numRd < s.chunkSize then
      { s with rdStatus := -EINVAL }.readDoneFinish env
    else s.readDoneFinish env

/-- `ReplicatorImpl::HandleWriteDone`: advance by the bytes written, then write the carried
tail or read on. -/
def handleWriteDone (env : Env) (oc : Bool) (status numBytesIO : Int) (s : Rep) : Rep :=
  let s := { s with storeWrite := false }
  if s.cancelFlag ∨ status < 0 then s.terminate env (if s.cancelFlag then ECANCELED else status)
  else
    let s := { s with offset := s.offset + numBytesIO }
    if s.rdOffset = s.offset ∧ s.rdBuf ≠ [] then s.handleReadDone env oc else s.read env oc

end Rep

end QfsReplicator
