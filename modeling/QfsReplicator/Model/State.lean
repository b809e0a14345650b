import QfsReplicator.Basic

/-! # Replicator state

One `ReplicatorImpl` and, in recovery mode, the members its `RSReplicatorImpl` adds: the
request it serves, its own fields, the fields of the three ops it reuses (`mReadOp`,
`mWriteOp`, `mChunkMetadataOp`), the asynchronous operations it has outstanding, and the
calls it has made to the chunk manager and to `SubmitOpResponse`.

The synchronous results of the collaborators outside `src/` (buffer manager, chunk manager,
reader, meta server client) are an `Env`, chosen afresh for every step.
-/

namespace QfsReplicator

/-- The inputs of a `ReplicateChunkOp` that `Replicator::Run` and the replicator read. -/
structure ReplicateChunkOp where
  fid : Int
  chunkId : Int
  chunkVersion : Int
  targetVersion : Int
  /-- `location.IsValid()`: direct replication from `location`, recovery otherwise. -/
  locationValid : Bool
  locationPort : Int
  chunkOffset : Int
  striperType : Int
  numStripes : Int
  numRecoveryStripes : Int
  stripeSize : Int
  fileSize : Int
  chunkServerAccess : List UInt8
  deriving DecidableEq, Repr

/-- `RSReplicatorImpl::State`: the transition handed to the client thread. -/
inductive State
  | kNone
  | kStart
  | kRead
  deriving DecidableEq, Repr

/-- The op a direct replicator has enqueued at its peer. -/
inductive PeerOp
  | metadata
  | read
  deriving DecidableEq, Repr

/-- One `gChunkManager.WriteChunk` call, as `mWriteOp` stood when it was made. -/
structure WriteCall where
  offset : Int
  numBytes : Int
  data : List UInt8
  checksums : List UInt32
  deriving DecidableEq, Repr

/-- `Replicator::Counters`. -/
structure Counters where
  replicatorCount : Nat := 0
  replicationCount : Nat := 0
  replicationErrorCount : Nat := 0
  replicationCanceledCount : Nat := 0
  recoveryCount : Nat := 0
  recoveryErrorCount : Nat := 0
  recoveryCanceledCount : Nat := 0
  deriving DecidableEq, Repr

/-- The configuration `SetParameters` installs, as a replicator reads it. -/
structure Cfg where
  /-- `sReadSkipDiskVerifyFlag`. -/
  readSkipDiskVerify : Bool
  /-- `sRSReaderMaxRecoverChunkSize`. -/
  maxRecoverChunkSize : Int
  /-- `sRSReaderPanicOnInvalidChunkFlag`. -/
  panicOnInvalidChunk : Bool
  /-- `ComputeChecksums` (`kfsio/checksum.h`): one checksum per block of a buffer. -/
  computeChecksums : List UInt8 → List UInt32

/-- What `HandleStart`'s authentication block does on the slot's client. -/
inductive AuthReload
  /-- No update-counter pointer, or the slot is current. -/
  | keep
  /-- The slot reloads; `SetParameters` returns `status`. -/
  | reload (status : Int)
  /-- `GetAuthContext()` is null. -/
  | nullContext
  deriving DecidableEq, Repr

/-- The synchronous results of the calls one step makes outside the replicator. -/
structure Env where
  overQuota : Bool
  getForDiskIo : Bool
  allocStatus : Int
  /-- `AllocChunk` succeeded but left `mFileHandle` null. -/
  allocNullHandle : Bool
  writeStatus : Int
  changeVersStatus : Int
  auth : AuthReload
  setServerFails : Bool
  openStatus : Int
  readStatus : Int
  readerActive : Bool
  /-- `mReader.Unregister`/`Shutdown` delivered the close completion and dropped its reference. -/
  shutdownUnref : Bool
  deriving DecidableEq, Repr

/-- A replicator (`ReplicatorImpl`, with the `RSReplicatorImpl` members when `rs`). -/
structure Rep where
  rs : Bool
  op : ReplicateChunkOp
  /-- `mOwner != 0`: `HandleReplicationDone` has not run. -/
  owner : Bool
  opStatus : Int
  opStatusMsg : String
  opChunkVersion : Int
  invalidStripeIdx : String
  chunkVersion : Int
  chunkSize : Int
  offset : Int
  done : Bool
  cancelFlag : Bool
  fileHandle : Bool
  /-- `BufferManager::Client::IsWaiting()`. -/
  waiting : Bool
  rdOffset : Int
  rdNumBytes : Int
  rdNumBytesIO : Int
  rdStatus : Int
  skipVerify : Bool
  rdChecksum : List UInt32
  rdBuf : List UInt8
  wrOffset : Int
  wrNumBytes : Int
  wrChecksums : List UInt32
  wrBuf : List UInt8
  mdStatus : Int
  mdChunkSize : Int
  mdChunkVersion : Int
  state : State
  readTail : List UInt8
  readSize : Int
  readInFlight : Bool
  pendingClose : Bool
  pendingCancel : Bool
  /-- `mClientThreadPtr != 0`. -/
  clientThread : Bool
  /-- `mLocation.IsValid()`. -/
  locationValid : Bool
  /-- `mReader` still reports to this replicator (`Unregister` not yet called). -/
  readerRegistered : Bool
  peerOp : Option PeerOp
  storeWrite : Bool
  changeVers : Bool
  /-- The reader `Read`s not yet completed. -/
  readerReads : Nat
  /-- The reader owes the final completion of a `Close`. -/
  readerClose : Bool
  /-- `IsPending()`: the entry is in the client thread's queue. -/
  queued : Bool
  /-- `Enqueue` ran `Handle()` inline; it runs before anything else happens. -/
  runNow : Bool
  /-- The offset of the outstanding reader `Read`, `mOffset + mReadTail.BytesConsumable()`. -/
  reqOffset : Int
  /-- `mReadTail.BytesConsumable()` when that `Read` was issued. -/
  reqTail : Nat
  writes : List WriteCall
  /-- The target versions passed to `AllocChunk`. -/
  allocs : List Int
  /-- `(status, mCancelFlag)` at every `gChunkManager.ReplicationDone` call. -/
  releases : List (Int × Bool)
  /-- `(status, chunkVersion)` of every `SubmitOpResponse`. -/
  responses : List (Int × Int)
  versStarts : Nat
  cancelCalls : Nat
  /-- The `-EBADCKSUM` reads `HandleReadDone` has re-issued with disk verification. -/
  retries : Nat
  /-- The byte count `Run` passed to `IsOverQuota` and `GetForDiskIo`. -/
  bufRequest : Int
  ctrs : Counters
  /-- The message of the `die` that stopped the process. -/
  dead : Option String
  /-- Some handler read `mOwner` after `HandleReplicationDone` cleared it. -/
  ownerAfterDone : Bool
  /-- `HandleCancel`'s `assert(mState == kStart)` failed. -/
  cancelAssert : Bool
  /-- `HandleCompletion` ran with no state claimed (`mState == kNone`). -/
  unclaimed : Bool
  /-- The bytes of every buffer `Done` took as read data, in order. -/
  received : List UInt8

namespace Rep

/-- The constructors `ReplicatorImpl(op, peer)` and `RSReplicatorImpl(op, ...)`. -/
def create (op : ReplicateChunkOp) (clientThread locationValid : Bool) (readSize : Int) : Rep where
  rs := !op.locationValid
  op := op
  owner := true
  opStatus := 0
  opStatusMsg := ""
  opChunkVersion := op.chunkVersion
  invalidStripeIdx := ""
  chunkVersion := op.chunkVersion
  chunkSize := 0
  offset := 0
  done := false
  cancelFlag := false
  fileHandle := false
  waiting := false
  rdOffset := 0
  rdNumBytes := 0
  rdNumBytesIO := 0
  rdStatus := 0
  skipVerify := false
  rdChecksum := []
  rdBuf := []
  wrOffset := 0
  wrNumBytes := 0
  wrChecksums := []
  wrBuf := []
  mdStatus := 0
  mdChunkSize := 0
  mdChunkVersion := 0
  state := .kNone
  readTail := []
  readSize := readSize
  readInFlight := false
  pendingClose := false
  pendingCancel := false
  clientThread := clientThread && !op.locationValid
  locationValid := locationValid
  readerRegistered := !op.locationValid
  peerOp := none
  storeWrite := false
  changeVers := false
  readerReads := 0
  readerClose := false
  queued := false
  runNow := false
  reqOffset := 0
  reqTail := 0
  writes := []
  allocs := []
  releases := []
  responses := []
  versStarts := 0
  cancelCalls := 0
  retries := 0
  bufRequest := 0
  ctrs := {}
  dead := none
  ownerAfterDone := false
  cancelAssert := false
  unclaimed := false
  received := []

/-- `die(msg)`: the process stops; nothing after it runs. -/
def die (msg : String) (s : Rep) : Rep := { s with dead := some msg }

/-- A read of `*mOwner`; after `HandleReplicationDone` it is recorded as a use of a cleared owner. -/
def touchOwner (s : Rep) : Rep := { s with ownerAfterDone := s.ownerAfterDone || !s.owner }

end Rep

/-- The counter `HandleReplicationDone` bumps for a failed or cancelled op. -/
def Counters.bumpFailed (c : Counters) (direct cancelled : Bool) : Counters :=
  match direct, cancelled with
  | true, true => { c with replicationCanceledCount := c.replicationCanceledCount + 1 }
  | true, false => { c with replicationErrorCount := c.replicationErrorCount + 1 }
  | false, true => { c with recoveryCanceledCount := c.recoveryCanceledCount + 1 }
  | false, false => { c with recoveryErrorCount := c.recoveryErrorCount + 1 }

end QfsReplicator
