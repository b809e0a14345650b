import QfsReplicator.Model.Recovery

/-! # Events and runs of one replicator

A replicator moves on when one of its outstanding operations completes, when the buffer
manager grants its request, when it is cancelled, or when its client thread runs the posted
`Handle()`. `Handle()` posted inline (`runNow`) runs before anything else; once a `die` has
stopped the process nothing happens at all.
-/

namespace QfsReplicator

namespace Rep

/-- `ReplicatorImpl::Start`: ask the peer for the chunk's size and version. -/
def directStart (cfg : Cfg) (s : Rep) : Rep :=
  { s with skipVerify := cfg.readSkipDiskVerify, peerOp := some .metadata }

/-- The virtual `Start()`. -/
def start (cfg : Cfg) (env : Env) (oc : Bool) (s : Rep) : Rep :=
  if s.rs then s.rsStart oc env else s.directStart cfg

@[simp] theorem start_of_direct {s : Rep} (h : s.rs = false) (cfg : Cfg) (env : Env) (oc : Bool) :
    s.start cfg env oc = s.directStart cfg := by
  simp [start, h]

/-- `ReplicatorImpl::Granted`: the buffers arrived. -/
def granted (cfg : Cfg) (env : Env) (s : Rep) : Rep :=
  { s with waiting := false }.start cfg env false

/-- The virtual `GetBufferBytesRequired()`, in 32-bit `int` arithmetic in recovery mode. -/
def getBufferBytesRequired (s : Rep) : Int :=
  if s.rs then int32 (s.readSize * (if s.owner then int32 (s.op.numStripes + 1) else 0))
  else kDefaultReplicationReadSize

/-- The admission half of `ReplicatorImpl::Run`: request the buffers, then start at once, fail
over quota, or wait for `Granted`. -/
def run (cfg : Cfg) (env : Env) (s : Rep) : Rep :=
  let s := { s with bufRequest := max kChunkHeaderSize s.getBufferBytesRequired }
  if env.overQuota then s.terminate env ENOMEM
  else if env.getForDiskIo then s.start cfg env false
  else { s with waiting := true }

/-- The virtual `Cancel()`; every caller runs on the main thread. -/
def cancel (env : Env) (s : Rep) : Rep :=
  let s := { s with cancelCalls := s.cancelCalls + 1 }
  if s.rs then s.rsCancel false else s.cancelBase env

theorem cancel_of_direct {s : Rep} (h : s.rs = false) (env : Env) :
    s.cancel env = { s with cancelCalls := s.cancelCalls + 1 }.cancelBase env := by
  simp [cancel, h]

end Rep

/-- What can happen to a replicator next. -/
inductive Event
  | granted
  /-- The peer's reply to `mChunkMetadataOp`. -/
  | metadataDone (status chunkSize chunkVersion : Int)
  /-- The peer's reply to `mReadOp`: status, data and per-block checksums. -/
  | readDone (status : Int) (data : List UInt8) (checksum : List UInt32)
  /-- `mWriteOp` completes, on the client thread (`oc`) or not. -/
  | writeDone (status numBytesIO : Int) (oc : Bool)
  | changeVersDone (status : Int)
  | cancel
  /-- The reader's `Done` for an outstanding `Read`. -/
  | readerDone (status offset size : Int) (buf : Option (List UInt8))
  /-- The reader's final `Done` after `Close`. -/
  | closeDone (status : Int)
  /-- A `Done` with no buffer while the reader owes no `Read` and no `Close`. -/
  | readerNote (status : Int)
  | handleQueued
  | handleInline

/-- Whether `e` can happen in `s`: the operation it completes is outstanding, and nothing but
the inline `Handle()` runs while that is due. -/
def Event.enabled : Event → Rep → Bool
  | .handleInline, s => s.runNow
  | .granted, s => !s.runNow && s.waiting
  | .metadataDone .., s => !s.runNow && s.peerOp == some .metadata
  | .readDone .., s => !s.runNow && s.peerOp == some .read
  | .writeDone .., s => !s.runNow && s.storeWrite
  | .changeVersDone _, s => !s.runNow && s.changeVers
  | .cancel, s => !s.runNow
  | .readerDone .., s => !s.runNow && decide (0 < s.readerReads)
  | .closeDone _, s => !s.runNow && s.readerClose
  | .readerNote _, s => !s.runNow && s.readerRegistered && s.readerReads == 0 && !s.readerClose
  | .handleQueued, s => !s.runNow && s.queued

/-- What `e` does: the completion handler it runs. Peer and buffer-manager completions arrive on
the main thread, reader completions and queued `Handle()` calls on the client thread. -/
def Event.apply (cfg : Cfg) (env : Env) : Event → Rep → Rep
  | .handleInline, s => { s with runNow := false }.handle env true
  | .granted, s => s.granted cfg env
  | .metadataDone st sz v, s =>
    { s with peerOp := none, mdStatus := st, mdChunkSize := sz, mdChunkVersion := v }.handleStartDone
      env false
  | .readDone st data ck, s =>
    { s with peerOp := none, rdStatus := st, rdBuf := data, rdChecksum := ck }.handleReadDone env false
  | .writeDone st n oc, s => s.handleWriteDone env oc st n
  | .changeVersDone st, s => { s with changeVers := false }.handleReplicationDone st
  | .cancel, s => s.cancel env
  | .readerDone st off sz buf, s =>
    { s with readerReads := s.readerReads - 1 }.completionDone cfg env true st off sz buf
  | .closeDone st, s =>
    { s with readerClose := false }.completionDone cfg { env with readerActive := false } true st 0 0
      none
  | .readerNote st, s => s.completionDone cfg env true st 0 0 none
  | .handleQueued, s => { s with queued := false }.handle env true

/-- One step: `none` when the event cannot happen in `s`, or a `die` has stopped the process. -/
def step (cfg : Cfg) (env : Env) (e : Event) (s : Rep) : Option Rep :=
  if s.dead.isNone && e.enabled s then some (e.apply cfg env s) else none

theorem step_eq_some {cfg : Cfg} {env : Env} {e : Event} {s s' : Rep}
    (h : step cfg env e s = some s') :
    s.dead = none ∧ e.enabled s = true ∧ s' = e.apply cfg env s := by
  unfold step at h
  split at h
  · rename_i hc
    simp only [Bool.and_eq_true, Option.isNone_iff_eq_none] at hc
    exact ⟨hc.1, hc.2, (Option.some.inj h).symm⟩
  · cases h

/-- After a `die` nothing runs. -/
theorem step_of_dead {cfg : Cfg} {env : Env} {e : Event} {s : Rep} (h : s.dead.isSome) :
    step cfg env e s = none := by
  simp [step, Option.isNone_iff_eq_none, Option.isSome_iff_ne_none.mp h]

/-- The environment in which every synchronous call succeeds and buffers are granted at once. -/
def Env.ok : Env where
  overQuota := false
  getForDiskIo := true
  allocStatus := 0
  allocNullHandle := false
  writeStatus := 0
  changeVersStatus := 0
  auth := .keep
  setServerFails := false
  openStatus := 0
  readStatus := 0
  readerActive := true
  shutdownUnref := false

/-- The states a replicator reaches from a start `Init` admits, run through `Run`, along events
the environment `Ok` admits. -/
inductive Reachable (cfg : Cfg) (Init : Rep → Prop) (Ok : Rep → Event → Prop) : Rep → Prop
  | run {s : Rep} (env : Env) : Init s → Reachable cfg Init Ok (s.run cfg env)
  | step {s s' : Rep} {env : Env} {e : Event} :
      Reachable cfg Init Ok s → Ok s e → step cfg env e s = some s' → Reachable cfg Init Ok s'

/-- `s'` follows from `s` by steps along events `Ok` admits. -/
inductive Steps (cfg : Cfg) (Ok : Rep → Event → Prop) : Rep → Rep → Prop
  | refl (s : Rep) : Steps cfg Ok s s
  | tail {s s' s'' : Rep} {env : Env} {e : Event} :
      Steps cfg Ok s s' → Ok s' e → step cfg env e s' = some s'' → Steps cfg Ok s s''

/-- A property every step keeps holds all along a run. -/
theorem Steps.preserve {cfg : Cfg} {Ok : Rep → Event → Prop} {P : Rep → Prop}
    (hstep : ∀ {s s' env e}, P s → Ok s e → step cfg env e s = some s' → P s')
    {s s' : Rep} (h : Steps cfg Ok s s') (hs : P s) : P s' := by
  induction h with
  | refl => exact hs
  | tail _ hok hst ih => exact hstep ih hok hst

end QfsReplicator
