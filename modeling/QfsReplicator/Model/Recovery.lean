import QfsReplicator.Model.Impl

/-! # `RSReplicatorImpl`: recovery through the striped reader

The recovery replicator runs the shared handlers on its client thread: `Start` and `Read` claim
a state and post `Handle()`, `Handle()` opens the reader or issues one reader `Read`, and the
reader's `Done` upcall turns a buffer into checksum-aligned data for `HandleReadDone`, keeping a
sub-block remainder in `mReadTail`. A cancel is posted like a transition and unwinds in
`HandleCancel` once the queue is drained.
-/

namespace QfsReplicator

/-- The signed little-endian (host order) value of `bytes`. -/
def leSigned (bytes : List UInt8) : Int :=
  let v : Nat := bytes.foldr (fun b acc => b.toNat + 256 * acc) 0
  if v < 2 ^ (8 * bytes.length - 1) then v else v - 2 ^ (8 * bytes.length)

/-- `ReadVal`: copy `w` bytes out of the buffer and consume them; `none` is the
"invalid buffer size" `die`. -/
def readVal (w : Nat) (buf : List UInt8) : Option (Int × List UInt8) :=
  if buf.length < w then none else some (leSigned (buf.take w), buf.drop w)

/-- The invalid-stripe loop of `RSReplicatorImpl::Done`: records `(int idx, int64 chunkId,
int64 version)` appended to the report in decimal, at most `ns` of them, each with
`0 <= idx < ns`. An error is the message of the `die` the loop reaches. The fuel only makes the
recursion structural: each record consumes bytes, so the buffer length is always enough. -/
def invalidStripes (ns : Int) : Nat → Nat → List UInt8 → String → Except String (Nat × String)
  | 0, n, _, str => .ok (n, str)
  | fuel + 1, n, buf, str =>
    if buf = [] then .ok (n, str)
    else if ns ≤ n then .error "recovery: completion: invalid number of bad stripes"
    else match readVal 4 buf with
      | none => .error "invalid buffer size"
      | some (idx, buf) => match readVal 8 buf with
        | none => .error "invalid buffer size"
        | some (chunkId, buf) => match readVal 8 buf with
          | none => .error "invalid buffer size"
          | some (version, buf) =>
            if idx < 0 ∨ ns ≤ idx then .error "recovery: completion: invalid bad stripe index"
            else invalidStripes ns fuel (n + 1) buf
              ((if 0 < n then str ++ " " else str) ++ toString idx ++ " " ++ toString chunkId ++
                " " ++ toString version)

/-- The `die`s of the invalid-stripe loop. -/
theorem invalidStripes_error {ns : Int} {fuel n : Nat} {buf : List UInt8} {str m : String}
    (h : invalidStripes ns fuel n buf str = .error m) :
    m = "recovery: completion: invalid number of bad stripes" ∨ m = "invalid buffer size" ∨
      m = "recovery: completion: invalid bad stripe index" := by
  induction fuel generalizing n buf str with
  | zero => cases h
  | succ fuel ih =>
    unfold invalidStripes at h
    split at h
    · cases h
    · split at h
      · cases h
        exact .inl rfl
      · split at h
        · cases h
          exact .inr (.inl rfl)
        · split at h
          · cases h
            exact .inr (.inl rfl)
          · split at h
            · cases h
              exact .inr (.inl rfl)
            · split at h
              · cases h
                exact .inr (.inr rfl)
              · exact ih h

namespace Rep

/-- The report `Done` writes to `invalidStripeIdx` for a failed read that carries a buffer,
or the message of the `die` it reaches (a malformed buffer, or a detected invalid chunk with
`panicOnInvalidChunk` and a non-empty file). -/
def stripeReport (cfg : Cfg) (b : List UInt8) (s : Rep) : Except String String :=
  match invalidStripes (int32 (s.op.numStripes + s.op.numRecoveryStripes)) b.length 0 b "" with
  | .error msg => .error msg
  | .ok (n, str) =>
    if 0 < n ∧ cfg.panicOnInvalidChunk ∧ 0 < s.op.fileSize then
      .error ("recovery: invalid chunk(s) detected: " ++ str)
    else .ok str

/-- `RSReplicatorImpl::HandleCompletion`: ignored while a cancel is pending; otherwise release
the claimed state and continue with the size or the read completion. `unclaimed` records a call
made with no state claimed. -/
def handleCompletion (env : Env) (oc : Bool) (metadata : Bool) (s : Rep) : Rep :=
  let s := { s with unclaimed := s.unclaimed || s.state == .kNone }
  if s.pendingCancel then s
  else
    let s := { s with state := .kNone }
    if metadata then s.handleStartDone env oc else s.handleReadDone env oc

/-- `RSReplicatorImpl::Start`: the size of a recovered chunk is `CHUNKSIZE` until the reader
reports its end. -/
def rsStart (oc : Bool) (env : Env) (s : Rep) : Rep :=
  if s.pendingCancel then s
  else
    let s := s.touchOwner
    let s := { s with
      mdChunkSize := CHUNKSIZE
      mdChunkVersion := s.opChunkVersion
      mdStatus := 0
      rdStatus := 0
      rdNumBytes := 0
      skipVerify := false }
    if !s.locationValid then { s with mdStatus := -EINVAL }.handleCompletion env oc true
    else s.enqueue oc .kStart

/-- `RSReplicatorImpl::HandleStart`: reload the slot's credentials if they are stale, point the
meta server client at the meta server, and open the reader. -/
def handleStart (env : Env) (oc : Bool) (s : Rep) : Rep :=
  match env.auth with
  | .nullContext => s.die "recovery: invalid null authentication context"
  | auth =>
    let s := match auth with
      | .reload st => { s with mdStatus := st }
      | _ => s
    let s := if env.setServerFails then { s with mdStatus := -EHOSTUNREACH } else s
    let s := if (0 : Int) ≤ s.mdStatus then { s.touchOwner with mdStatus := env.openStatus } else s
    s.handleCompletion env oc true

/-- `HandleStart` dies on a null context, or completes the start with only `mMdStatus` and the
owner check changed. -/
theorem handleStart_cases (s : Rep) (env : Env) (oc : Bool) :
    s.handleStart env oc = s.die "recovery: invalid null authentication context" ∨
      ∃ md oa, s.handleStart env oc =
        { s with mdStatus := md, ownerAfterDone := oa }.handleCompletion env oc true := by
  unfold handleStart touchOwner
  split
  · exact .inl rfl
  · dsimp only
    repeat' split
    all_goals exact .inr ⟨_, _, rfl⟩

/-- `RSReplicatorImpl::HandleRead`: complete at the end of the chunk or after an error,
otherwise issue one reader `Read` of `mReadSize` bytes past the carried tail. -/
def handleRead (env : Env) (oc : Bool) (s : Rep) : Rep :=
  if s.offset ≥ s.chunkSize ∨ s.rdStatus < 0 then s.handleCompletion env oc false
  else
    let s := { s with
      rdStatus := 0
      rdNumBytes := s.readSize
      rdNumBytesIO := 0
      rdOffset := s.offset
      rdBuf := []
      readInFlight := true
      reqOffset := s.offset + s.readTail.length
      reqTail := s.readTail.length }
    if env.readStatus ≠ 0 then
      { s with readInFlight := false, rdStatus := env.readStatus }.handleCompletion env oc false
    else { s with readerReads := s.readerReads + 1 }

/-- `RSReplicatorImpl::HandleCancel`: detach the reader, wait for the queue to drain, cancel,
and fail whatever transition was claimed. -/
def handleCancel (env : Env) (oc : Bool) (s : Rep) : Rep :=
  let s := { s with readerRegistered := false, readerReads := 0, readerClose := false }
  if env.shutdownUnref ∧ s.pendingClose then { s with pendingClose := false }
  else if s.queued then s
  else
    let w := s.waiting
    let s := s.cancelBase env
    if w ∨ s.state = .kNone then s
    else if s.readInFlight then
      { s with readInFlight := false, rdStatus := -ETIMEDOUT }.handleReadDone env oc
    else
      { s with cancelAssert := s.cancelAssert || decide (s.state ≠ .kStart),
               mdStatus := -ETIMEDOUT }.handleStartDone env oc

/-- `RSReplicatorImpl::Handle`. -/
def handle (env : Env) (oc : Bool) (s : Rep) : Rep :=
  if s.pendingCancel then s.handleCancel env oc
  else match s.state with
    | .kStart => s.handleStart env oc
    | .kRead => s.handleRead env oc
    | .kNone => s.die "recovery: invalid state"

/-- `RSReplicatorImpl::Cancel`: post the cancel once. -/
def rsCancel (oc : Bool) (s : Rep) : Rep :=
  if s.pendingCancel then s else { s with pendingCancel := true }.enqueue oc s.state

/-- The end of `Done`: the recovered-size check, the position check, the invalid-stripe
report of a failed read, and the completion. -/
def doneFinish (cfg : Cfg) (env : Env) (oc : Bool) (status inOffset : Int)
    (buf : Option (List UInt8)) (readOk : Bool) (pendingSize : Int) (s : Rep) : Rep :=
  if readOk ∧ cfg.maxRecoverChunkSize < s.offset + pendingSize then
    s.die (" recovery: file: " ++ toString s.op.fid ++ " chunk: " ++ toString s.op.chunkId ++
      " pos: " ++ toString s.offset ++ " + " ++ toString s.readTail.length ++
      " rdsize: 0 exceeds " ++ toString cfg.maxRecoverChunkSize)
  else if !s.owner then s
  else if s.op.chunkOffset + s.offset ≠ inOffset then s.die "recovery: invalid read completion"
  else match buf with
    | some b =>
      if !readOk ∧ status < 0 ∧ b ≠ [] then
        match s.stripeReport cfg b with
        | .error msg => s.die msg
        | .ok str => { s with invalidStripeIdx := str }.handleCompletion env oc false
      else s.handleCompletion env oc false
    | none => s.handleCompletion env oc false

/-- The end of `Done` dies, returns, or completes the read with only the invalid-stripe report
changed. -/
theorem doneFinish_cases (cfg : Cfg) (env : Env) (oc : Bool) (status inOffset : Int)
    (buf : Option (List UInt8)) (readOk : Bool) (pendingSize : Int) (s : Rep) :
    (∃ m, s.doneFinish cfg env oc status inOffset buf readOk pendingSize = s.die m) ∨
      s.doneFinish cfg env oc status inOffset buf readOk pendingSize = s ∨
      ∃ i, s.doneFinish cfg env oc status inOffset buf readOk pendingSize =
        { s with invalidStripeIdx := i }.handleCompletion env oc false := by
  unfold doneFinish
  repeat' split
  all_goals first | exact .inl ⟨_, rfl⟩ | exact .inr (.inl rfl) | exact .inr (.inr ⟨_, rfl⟩)

/-- `ComputeChecksums` for the block-aligned data of a successful `Done`. -/
def doneChecksums (cfg : Cfg) (s : Rep) : Rep :=
  if 0 < s.rdNumBytes ∧ s.rdBuf ≠ [] ∧ s.rdOffset % CHECKSUM_BLOCKSIZE = 0 ∧
      s.rdNumBytes % CHECKSUM_BLOCKSIZE = 0 then
    { s with rdChecksum := cfg.computeChecksums s.rdBuf }
  else s

/-- A successful buffer: at the end of the chunk (a short buffer, or a read that reaches
`mChunkSize`) everything, tail first, is the last data and fixes the chunk size; otherwise only
whole checksum blocks move on, the rest stays in `mReadTail`. Less than a block in all
re-issues the read. -/
def doneRead (cfg : Cfg) (env : Env) (oc : Bool) (inOffset : Int) (b : List UInt8)
    (s : Rep) : Rep :=
  let pendingSize : Int := s.readTail.length + b.length
  if s.readSize > b.length ∨ s.offset + s.readTail.length + s.readSize ≥ s.chunkSize then
    let data := s.readTail ++ b
    let s := { s with
      rdBuf := data
      readTail := []
      rdNumBytes := data.length
      rdNumBytesIO := data.length
      chunkSize := s.offset + data.length
      pendingClose := env.readerActive
      readerClose := env.readerActive }
    (s.doneChecksums cfg).doneFinish cfg env oc 0 inOffset (some b) true pendingSize
  else
    let all := s.readTail ++ b
    let nmv : Int := (all.length : Int) / CHECKSUM_BLOCKSIZE * CHECKSUM_BLOCKSIZE
    if nmv ≤ 0 then { s with readTail := all }.handleRead env oc
    else
      let s := { s with
        rdBuf := all.take nmv.toNat
        readTail := all.drop nmv.toNat
        rdNumBytes := nmv
        rdNumBytesIO := nmv }
      (s.doneChecksums cfg).doneFinish cfg env oc 0 inOffset (some b) true pendingSize

/-- `RSReplicatorImpl::Done`, the reader's `Completion::Done` upcall. -/
def completionDone (cfg : Cfg) (env : Env) (oc : Bool) (status inOffset inSize : Int)
    (buf : Option (List UInt8)) (s : Rep) : Rep :=
  if buf.isSome ∧ (inOffset < 0 ∨ inSize > s.rdNumBytes ∨ s.readInFlight = false) then
    s.die "recovery: invalid read completion"
  else if s.pendingClose then
    if env.readerActive then s else { s with pendingClose := false }
  else if !s.readInFlight then
    if 0 ≤ s.rdStatus ∧ status < 0 then { s with rdStatus := status } else s
  else
    let s := { s with readInFlight := false }
    if s.rdStatus ≠ 0 ∨ (buf.isNone ∧ status = 0) then s
    else
      let s := { s with rdChecksum := [], rdStatus := status }
      match buf with
      | some b =>
        if status = 0 then { s with received := s.received ++ b }.doneRead cfg env oc inOffset b
        else s.doneFinish cfg env oc status inOffset buf false 0
      | none => s.doneFinish cfg env oc status inOffset buf false 0

/-- The `die`s the invalid-stripe report can reach. -/
theorem stripeReport_error {cfg : Cfg} {b : List UInt8} {s : Rep} {m : String}
    (h : s.stripeReport cfg b = .error m) :
    m = "recovery: completion: invalid number of bad stripes" ∨ m = "invalid buffer size" ∨
      m = "recovery: completion: invalid bad stripe index" ∨
      "recovery: invalid chunk(s) detected: ".data <+: m.data := by
  unfold stripeReport at h
  split at h
  · cases h
    exact Or.imp_right (Or.imp_right Or.inl) (invalidStripes_error ‹_›)
  · split at h
    · cases h
      exact .inr (.inr (.inr (by rw [String.data_append]; exact List.prefix_append _ _)))
    · cases h

end Rep

end QfsReplicator
