import QfsReplicator.Model.Step

/-! # Admission of a recovery

`Replicator::Run` accepts a recovery op only with sane RS parameters, and the recovery
replicator reads in pieces of `GetReadSize(op)` bytes: a checksum-block multiple of at least one
block, aligned on the stripe where that fits the per-stripe share of the client quota. The
stripe counts are checked only from below, and the `int` arithmetic on them is not.
-/

namespace QfsReplicator

/-- `KFS_STRIPED_FILE_TYPE_RS` (`common/kfstypes.h`). -/
def KFS_STRIPED_FILE_TYPE_RS : Int := 2

/-- `KFS_MIN_STRIPE_SIZE` (`common/kfstypes.h`). -/
def KFS_MIN_STRIPE_SIZE : Int := 4096

/-- `KFS_MAX_STRIPE_SIZE` (`common/kfstypes.h`): one chunk. -/
def KFS_MAX_STRIPE_SIZE : Int := CHUNKSIZE

/-- `KFS_STRIPE_ALIGNMENT` (`common/kfstypes.h`). -/
def KFS_STRIPE_ALIGNMENT : Int := 4096

/-- The recovery validation of `Replicator::Run`: the op is accepted unless one of its checks
fails (C++ `%` truncates toward zero). -/
def rsValid (op : ReplicateChunkOp) : Bool :=
  !decide (op.chunkOffset < 0 ∨ op.chunkOffset.tmod CHUNKSIZE ≠ 0 ∨
    op.striperType ≠ KFS_STRIPED_FILE_TYPE_RS ∨ op.numStripes ≤ 0 ∨ op.numRecoveryStripes ≤ 0 ∨
    op.stripeSize < KFS_MIN_STRIPE_SIZE ∨ op.stripeSize > KFS_MAX_STRIPE_SIZE ∨
    CHUNKSIZE.tmod op.stripeSize ≠ 0 ∨ op.stripeSize.tmod KFS_STRIPE_ALIGNMENT ≠ 0 ∨
    op.locationPort ≤ 0)

/-- The loop of `RSReplicatorImpl::GetGcd`. Each pass makes `|b|` smaller, so `|b| + 1` passes
are always enough; the fuel only makes the recursion structural. -/
def getGcdLoop : Nat → Int → Int → Int
  | 0, a, _ => a
  | fuel + 1, a, b => if b = 0 then a else getGcdLoop fuel b (a.tmod b)

/-- `RSReplicatorImpl::GetGcd`. -/
def getGcd (nl nr : Int) : Int := getGcdLoop (nr.natAbs + 1) nl nr

/-- Whether a round of `GetGcd`'s loop computes `INT_MIN % -1`: the quotient does not fit in an
`int`, so C++ leaves the remainder undefined (x86 traps), where `getGcdLoop` takes it as 0. -/
def getGcdLoopTraps : Nat → Int → Int → Bool
  | 0, _, _ => false
  | fuel + 1, a, b => if b = 0 then false else decide (a = -2147483648 ∧ b = -1) || getGcdLoopTraps fuel b (a.tmod b)

/-- Whether `GetGcd(nl, nr)` is undefined. -/
def getGcdTraps (nl nr : Int) : Bool := getGcdLoopTraps (nr.natAbs + 1) nl nr

/-- `RSReplicatorImpl::GetLcm`, in `int` arithmetic. -/
def getLcm (nl nr : Int) : Int :=
  if nl = 0 ∨ nr = 0 then 0 else int32 (nl.tdiv (getGcd nl nr) * nr)

/-- `RSReplicatorImpl::GetReadSize` with `sRSReaderMaxReadSize = maxReadSize`, a buffer
manager whose `GetMaxClientQuota()` is `quota`, and `IOBufferData::GetDefaultBufferSize()`
equal to `ioBufferSize`. `numStripes + 1` is an `int` sum and the `(int)` cast wraps. -/
def getReadSize (maxReadSize quota ioBufferSize : Int) (op : ReplicateChunkOp) : Int :=
  let size := max CHECKSUM_BLOCKSIZE (int32 (min maxReadSize
    ((quota.tdiv (max 1 (int32 (op.numStripes + 1)))).tdiv CHECKSUM_BLOCKSIZE *
      CHECKSUM_BLOCKSIZE)))
  if size ≤ op.stripeSize then size
  else
    let lcm := getLcm CHECKSUM_BLOCKSIZE op.stripeSize
    if lcm > size then
      let lcm := getLcm ioBufferSize op.stripeSize
      if lcm > size then lcm else size.tdiv lcm * lcm
    else size.tdiv lcm * lcm

/-- The `assert` `RSReplicatorImpl::GetReadSize` makes before it computes the size: the maximum
read size is whole checksum blocks, at least one, the stripe size is positive, and the block is
whole I/O buffers. -/
def getReadSizeAssert (maxReadSize ioBufferSize : Int) (op : ReplicateChunkOp) : Bool :=
  decide (maxReadSize ≥ CHECKSUM_BLOCKSIZE) && decide (op.stripeSize > 0) &&
    decide (maxReadSize.tmod CHECKSUM_BLOCKSIZE = 0) && decide (CHECKSUM_BLOCKSIZE.tmod ioBufferSize = 0)

/-- A recovery replicator as `Replicator::Run` creates it for an op it accepts, with
`GetReadSize`'s parameters `maxReadSize`, `quota` and `ioBufferSize`; `GetMetaserver` decides
whether it has a client thread, the meta server location whether it is valid. -/
def RecoveryInit (maxReadSize quota ioBufferSize : Int) (s : Rep) : Prop :=
  ∃ op ct lv, op.locationValid = false ∧ rsValid op = true ∧
    s = Rep.create op ct lv (getReadSize maxReadSize quota ioBufferSize op)

/-! ## `Replicator::Run` -/

/-- A byte `Run` skips between the words of `chunkServerAccess`: `(*p & 0xFF) <= ' '`. -/
def isSpace (c : UInt8) : Bool := c ≤ 32

/-- The session token and key of `chunkServerAccess`: its first two words. -/
def accessWords (b : List UInt8) : List UInt8 × List UInt8 :=
  let p := b.dropWhile isSpace
  let q := (p.dropWhile (!isSpace ·)).dropWhile isSpace
  (p.takeWhile (!isSpace ·), q.takeWhile (!isSpace ·))

/-- What `Replicator::Run` learns outside the replicator: whether `FindServer` (or
`RemoteSyncSM::Create`) gives a peer, with the status it leaves in `op->status`; for a recovery,
whether `GetMetaserver` finds a usable meta server entry, whether that entry has a client
thread, and whether its location is valid. -/
structure RunEnv where
  peer : Bool
  peerStatus : Int
  metaEntryOk : Bool
  clientThread : Bool
  metaLocationValid : Bool
  deriving DecidableEq, Repr

/-- What `Replicator::Run` does with an op. -/
inductive RunOutcome
  /-- `SubmitOpResponse(op)` at once, with this status. -/
  | reject (status : Int)
  /-- `RSReplicatorImpl::Create` reached `die`. -/
  | dead (msg : String)
  /-- `impl->Run()` on this new replicator. -/
  | start (s : Rep)

/-- The call `Replicator::Run` hands the access header's words to, as `(token, tokenLen, key,
keyLen)`. -/
inductive AccessUse
  /-- `gChunkServer.FindServer` or `RemoteSyncSM::Create`, for a replication. -/
  | findServer (token key : List UInt8)
  /-- `RSReplicatorImpl::Create`, for a recovery. -/
  | create (token key : List UInt8)
  deriving DecidableEq, Repr

/-- The token and the key a call is given. -/
def AccessUse.words : AccessUse → List UInt8 × List UInt8
  | .findServer token key => (token, key)
  | .create token key => (token, key)

/-- What `Replicator::Run` leaves behind: what becomes of the op, the `op->statusMsg` it sets
itself, the increments it makes to `ReplicatorImpl::Ctrs()`, and the call it hands the access
words to. -/
structure RunResult where
  outcome : RunOutcome
  statusMsg : Option String
  ctrs : Counters
  access : Option AccessUse

/-- `Replicator::Run` up to `impl->Run()`: an access header with a token but no key (or the
other way round) is malformed; a replication needs a peer; a recovery needs valid RS
parameters and a meta server entry. -/
def replicatorRun (maxReadSize quota ioBufferSize : Int) (renv : RunEnv) (op : ReplicateChunkOp) :
    RunResult :=
  let w := accessWords op.chunkServerAccess
  if decide (0 < w.2.length) != decide (0 < w.1.length) then
    ⟨.reject (-EINVAL), some "malformed chunk access header value",
      if op.locationValid then { replicationErrorCount := 1 } else { recoveryErrorCount := 1 },
      none⟩
  else if op.locationValid then
    if renv.peer && decide (0 ≤ renv.peerStatus) then
      ⟨.start (Rep.create op false true 0), none, { replicationCount := 1 },
        some (.findServer w.1 w.2)⟩
    else
      ⟨.reject (if 0 ≤ renv.peerStatus then -EHOSTUNREACH else renv.peerStatus), none,
        { replicationCount := 1, replicationErrorCount := 1 }, some (.findServer w.1 w.2)⟩
  else if !rsValid op then
    ⟨.reject (-EINVAL), none, { recoveryCount := 1, recoveryErrorCount := 1 }, none⟩
  else if !renv.metaEntryOk then
    ⟨.dead "recovery: invalid meta server entry", none, { recoveryCount := 1 },
      some (.create w.1 w.2)⟩
  else
    ⟨.start (Rep.create op renv.clientThread renv.metaLocationValid
      (getReadSize maxReadSize quota ioBufferSize op)), none, { recoveryCount := 1 },
      some (.create w.1 w.2)⟩

/-- The failure `Replicator::Run` itself counts: a rejection. -/
def RunOutcome.failures : RunOutcome → Nat
  | .reject _ => 1
  | _ => 0

/-- `Replicator::Run` counts an op under its own kind only: once as a replication or a recovery
unless its access header is malformed, and once as an error exactly when it rejects the op. -/
theorem replicatorRun_ctrs (maxReadSize quota ioBufferSize : Int) (renv : RunEnv)
    (op : ReplicateChunkOp) :
    let r := replicatorRun maxReadSize quota ioBufferSize renv op
    let counted := if r.statusMsg = some "malformed chunk access header value" then 0 else 1
    r.ctrs = if op.locationValid then
        { replicationCount := counted, replicationErrorCount := r.outcome.failures }
      else { recoveryCount := counted, recoveryErrorCount := r.outcome.failures } := by
  unfold replicatorRun
  dsimp only
  split_ifs <;> simp_all [RunOutcome.failures]

/-- The replicators `Replicator::Run` starts. -/
def Admitted (maxReadSize quota ioBufferSize : Int) (s : Rep) : Prop :=
  ∃ renv op, (replicatorRun maxReadSize quota ioBufferSize renv op).outcome = .start s

/-- Every replicator `Run` starts is a fresh one. -/
theorem admitted_fresh {maxReadSize quota ioBufferSize : Int} {s : Rep}
    (h : Admitted maxReadSize quota ioBufferSize s) :
    ∃ op ct lv rsz, s = Rep.create op ct lv rsz := by
  obtain ⟨renv, op, h⟩ := h
  unfold replicatorRun at h
  dsimp only at h
  split_ifs at h <;> cases h <;> exact ⟨_, _, _, _, rfl⟩

/-- A recovery op with the largest `int` stripe count passes the validation of
`Replicator::Run`; `numStripes + 1` and `numStripes + numRecoveryStripes` overflow, and the
buffer request of `ReplicatorImpl::Run` wraps to the 16 KiB floor, below one read. -/
theorem numStripes_overflow :
    let op : ReplicateChunkOp := ⟨1, 2, 1, 2, false, 20000, 0, 2, 2147483647, 3, 65536, 1, []⟩
    let rsz := getReadSize kDefaultReplicationReadSize 67108864 4096 op
    let r := (Rep.create op true false rsz).run ⟨false, CHUNKSIZE, false, fun _ => []⟩ Env.ok
    rsValid op = true ∧ InInt32 op.numStripes ∧ ¬InInt32 (op.numStripes + 1) ∧
      ¬InInt32 (op.numStripes + op.numRecoveryStripes) ∧ rsz = 1048576 ∧
      r.bufRequest = 16384 ∧ r.bufRequest < rsz := by
  decide

end QfsReplicator
