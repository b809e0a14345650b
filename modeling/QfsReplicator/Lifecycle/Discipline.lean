import QfsReplicator.Model.Admission

/-! # The handoff discipline

A replicator waits for at most one thing at a time: buffers, its peer, the store, the version
change, the reader, or its own posted `Handle()`. A cancel posted from the main thread may stand
beside that one thing; it runs on the client thread once the queue drains. What the code relies
on follows from this and from the claimed state `mState`: `Enqueue` is asked for a transition
from `kNone` only (or, with a cancel pending, for the state it holds), `Handle()` finds a claimed
state or a cancel, at most one reader `Read` is outstanding, and `HandleReplicationDone` runs
once, with nothing left outstanding that could reach `mOwner` after it.

`Disc` is that discipline. `disc_reachable` shows that every replicator `Replicator::Run` starts
keeps it, in any environment and along any order of events.
-/

namespace QfsReplicator

namespace Rep

/-- A `Handle()` is posted: queued for the client thread, or due inline. -/
def posted (s : Rep) : Bool := s.queued || s.runNow

end Rep

/-- The `die`s of `Enqueue` and `Handle`: each of their messages starts with one of these. -/
def ProtocolDie (m : String) : Prop :=
  "recovery: invalid cancel enqueue".data <+: m.data ∨ "recovery: invalid state".data <+: m.data

instance (m : String) : Decidable (ProtocolDie m) := inferInstanceAs (Decidable (_ ∨ _))

/-! ## The invariant -/

/-- What the direct replicator never touches: the reader, the client thread's queue and the
claimed state. -/
def DirectFrame (s : Rep) : Prop :=
  s.state = .kNone ∧ s.readInFlight = false ∧ s.pendingCancel = false ∧ s.queued = false ∧
    s.runNow = false ∧ s.readerReads = 0 ∧ s.readerRegistered = false ∧ s.readerClose = false

/-- The recovery replicator has no peer, never skips disk verification, and sets
`mCancelFlag` only in `HandleCancel`; it queues `Handle()` only to a client thread, and never
has one queued and one due inline. -/
def RecoveryFrame (s : Rep) : Prop :=
  s.peerOp = none ∧ s.skipVerify = false ∧ (s.cancelFlag = true → s.pendingCancel = true) ∧
    (s.queued = true → s.clientThread = true) ∧ (s.runNow = true → s.queued = false)

def Mode (s : Rep) : Prop :=
  (s.rs = false ∧ DirectFrame s) ∨ (s.rs = true ∧ RecoveryFrame s)

/-- At most one reader `Read` is outstanding, and only under `mReadInFlightFlag`; a close
completion the replicator no longer waits for finds no `Read` counted but the one in flight. -/
def Reads (s : Rep) : Prop :=
  s.readerReads ≤ 1 ∧ (0 < s.readerReads → s.readInFlight = true) ∧
    (s.readerClose = true → s.pendingClose = false →
      s.readerReads = 0 ∧ s.readInFlight = true)

/-- The staging file and the op: only an uncancelled replicator that still owns the op holds
the file; it is released once, with a negative status unless the release came, uncancelled,
with a successful answer; the op is answered once, and `mOwner` is never read after that. -/
def Life (s : Rep) : Prop :=
  (s.fileHandle = true → s.owner = true ∧ s.cancelFlag = false ∧ s.releases = []) ∧
    (s.releases = [] ∨ (s.releases.length = 1 ∧ (s.cancelFlag = true ∨ s.owner = false))) ∧
    (∀ p ∈ s.releases, p.1 < 0 ∨ (p.2 = false ∧ s.responses.map Prod.fst = [0])) ∧
    s.responses.length = (if s.owner then 0 else 1) ∧ s.ownerAfterDone = false

/-- No `die` of `Enqueue` or `Handle`, and a `HandleCompletion` with nothing claimed only for
an invalid meta server location. -/
def Clean (s : Rep) : Prop :=
  (∀ m, s.dead = some m → ¬ProtocolDie m) ∧ (s.unclaimed = true → s.locationValid = false)

def Core (s : Rep) : Prop := Mode s ∧ Reads s ∧ Life s ∧ Clean s

/-- Nothing is outstanding that would run a handler: no buffer wait, peer op, store write,
version change or reader `Read`, and no posted `Handle()` but for a cancel. -/
def Quiet (s : Rep) : Prop :=
  s.waiting = false ∧ s.peerOp = none ∧ s.storeWrite = false ∧ s.changeVers = false ∧
    s.readInFlight = false ∧ (s.posted = true → s.pendingCancel = true)

/-- One thing outstanding at a time, each with the state it needs claimed; once the op is
answered, nothing at all but a cancel that will find nothing claimed. -/
def Busy (s : Rep) : Prop :=
  (s.owner = false → Quiet s ∧ (s.posted = true ∨ s.pendingCancel = false → s.state = .kNone)) ∧
    (s.waiting = true → Quiet { s with waiting := false } ∧ s.state = .kNone) ∧
    (s.peerOp ≠ none → Quiet { s with peerOp := none }) ∧
    (s.storeWrite = true → Quiet { s with storeWrite := false } ∧ s.state = .kNone) ∧
    (s.changeVers = true → Quiet { s with changeVers := false } ∧ s.state = .kNone) ∧
    (s.readInFlight = true → Quiet { s with readInFlight := false } ∧ s.state = .kRead) ∧
    (s.posted = true → s.pendingCancel = false →
      Quiet { s with queued := false, runNow := false } ∧ s.state ≠ .kNone)

/-- The handoff discipline. -/
def Disc (s : Rep) : Prop := Core s ∧ Busy s

/-- A handler runs with nothing outstanding, for a replicator that still owns its op and has
given back any claimed state, unless it unwinds a cancel. -/
def Ready (s : Rep) : Prop :=
  Core s ∧ Quiet s ∧ s.owner = true ∧
    (s.state = .kNone ∨ (s.cancelFlag = true ∧ s.posted = false))

section

variable {s : Rep} {env : Env} {oc : Bool} {st : Int}

theorem busy_of_quiet (h : Quiet s)
    (hst : s.owner = false → s.posted = true ∨ s.pendingCancel = false → s.state = .kNone) :
    Busy s := by
  obtain ⟨hw, hp, hs, hv, hr, hpc⟩ := h
  exact ⟨fun ho => ⟨⟨hw, hp, hs, hv, hr, hpc⟩, hst ho⟩, fun h => by simp [hw] at h,
    fun h => absurd hp h, fun h => by simp [hs] at h, fun h => by simp [hv] at h,
    fun h => by simp [hr] at h, fun h h' => by simp [hpc h] at h'⟩

theorem disc_of_ready (h : Ready s) : Disc s :=
  ⟨h.1, busy_of_quiet h.2.1 fun ho => by simp [h.2.2.1] at ho⟩

/-- A `Ready` replicator leaves nothing claimed for a `Handle()` to find. -/
theorem ready_state (h : Ready s) :
    s.posted = true ∨ s.pendingCancel = false → s.state = .kNone := by
  obtain ⟨⟨hmo, -⟩, -, -, hk | ⟨hc, hp⟩⟩ := h
  · exact fun _ => hk
  · rintro (h | h)
    · simp [hp] at h
    · rcases hmo with ⟨-, hd⟩ | ⟨-, -, -, hcp, -⟩
      · exact hd.1
      · simp [hcp hc] at h

theorem mode_direct (h : Mode s) (hrs : s.rs = false) : DirectFrame s := by
  rcases h with ⟨-, h⟩ | ⟨h', -⟩
  · exact h
  · simp [hrs] at h'

theorem mode_recovery (h : Mode s) (hrs : s.rs = true) : RecoveryFrame s := by
  rcases h with ⟨h', -⟩ | ⟨-, h⟩
  · simp [hrs] at h'
  · exact h

theorem disc_die {m : String} (h : Disc s) (hm : ¬ProtocolDie m) : Disc (s.die m) := by
  obtain ⟨⟨hmo, hre, hl, -, hu⟩, hb⟩ := h
  exact ⟨⟨hmo, hre, hl, fun _ h => Option.some.inj h ▸ hm, hu⟩, hb⟩

theorem ready_touchOwner (h : Ready s) : Ready s.touchOwner := by
  obtain ⟨⟨hmo, hre, ⟨hfh, hrl, hneg, hresp, hoad⟩, hcl⟩, hq, ho, hk⟩ := h
  exact ⟨⟨hmo, hre, ⟨hfh, hrl, hneg, hresp, by simp [Rep.touchOwner, ho, hoad]⟩, hcl⟩, hq, ho, hk⟩

theorem ready_fileHandle (h : Ready s) (hcf : s.cancelFlag = false) :
    Ready { s with fileHandle := true } := by
  obtain ⟨⟨hmo, hre, ⟨-, hrl, hneg, hresp, hoad⟩, hcl⟩, hq, ho, hk⟩ := h
  have hr0 : s.releases = [] := hrl.resolve_right fun ⟨_, h⟩ => by simp [hcf, ho] at h
  exact ⟨⟨hmo, hre, ⟨fun _ => ⟨ho, hcf, hr0⟩, hrl, hneg, hresp, hoad⟩, hcl⟩, hq, ho, hk⟩

/-- Whatever is outstanding belongs to a replicator that still owns its op. -/
theorem owner_of_busy (hb : Busy s) (hq : Quiet s → False) : s.owner = true := by
  cases ho : s.owner
  · exact absurd (hb.1 ho).1 hq
  · rfl

/-! ## One thing at a time

Each operation a handler starts, from a `Quiet` replicator, is then the only one outstanding. -/

theorem busy_peer (h : Quiet s) (ho : s.owner = true) (p : PeerOp) :
    Busy { s with peerOp := some p } := by
  obtain ⟨hw, -, hs, hv, hr, hpc⟩ := h
  exact ⟨fun h => by simp [ho] at h, fun h => by simp [hw] at h, fun _ => ⟨hw, rfl, hs, hv, hr, hpc⟩,
    fun h => by simp [hs] at h, fun h => by simp [hv] at h, fun h => by simp [hr] at h,
    fun h h' => by simp [hpc h] at h'⟩

theorem busy_store (h : Quiet s) (ho : s.owner = true) (hk : s.state = .kNone) :
    Busy { s with storeWrite := true } := by
  obtain ⟨hw, hp, -, hv, hr, hpc⟩ := h
  exact ⟨fun h => by simp [ho] at h, fun h => by simp [hw] at h, fun h => absurd hp h,
    fun _ => ⟨⟨hw, hp, rfl, hv, hr, hpc⟩, hk⟩, fun h => by simp [hv] at h,
    fun h => by simp [hr] at h, fun h h' => by simp [hpc h] at h'⟩

theorem busy_vers (h : Quiet s) (ho : s.owner = true) (hk : s.state = .kNone) :
    Busy { s with changeVers := true } := by
  obtain ⟨hw, hp, hs, -, hr, hpc⟩ := h
  exact ⟨fun h => by simp [ho] at h, fun h => by simp [hw] at h, fun h => absurd hp h,
    fun h => by simp [hs] at h, fun _ => ⟨⟨hw, hp, hs, rfl, hr, hpc⟩, hk⟩,
    fun h => by simp [hr] at h, fun h h' => by simp [hpc h] at h'⟩

/-! ## The final response -/

theorem life_handleReplicationDone (h : Ready s) : Life (s.handleReplicationDone st) := by
  obtain ⟨⟨-, -, ⟨hfh, hrl, hneg, hresp, hoad⟩, -⟩, -, ho, -⟩ := h
  have hr0 : s.responses = [] := List.length_eq_zero.mp (by simpa [ho] using hresp)
  unfold Life Rep.handleReplicationDone Rep.touchOwner
  dsimp only
  refine ⟨nofun, ?_, ?_, by simp [hr0], by simp [ho, hoad]⟩
  · cases hf : s.fileHandle
    · rcases hrl with h | ⟨h, -⟩ <;> simp [h]
    · simp [(hfh hf).2.2]
  · intro p hp
    cases hf : s.fileHandle
    · simp only [hf, Bool.false_eq_true, ↓reduceIte] at hp
      rcases hneg p hp with h | ⟨-, h⟩
      · exact .inl h
      · simp [hr0] at h
    · simp only [hf, ↓reduceIte, (hfh hf).2.2, List.nil_append, List.mem_singleton] at hp
      subst hp
      by_cases h0 : 0 ≤ st
      · simp [h0, (hfh hf).2.1, hr0]
      · exact .inl (by dsimp only; omega)

theorem disc_handleReplicationDone (h : Ready s) : Disc (s.handleReplicationDone st) := by
  have hst := ready_state h
  have hl := @life_handleReplicationDone s st h
  obtain ⟨⟨hmo, hre, -, hcl⟩, hq, -, -⟩ := h
  exact ⟨⟨hmo, hre, hl, hcl⟩, busy_of_quiet hq fun _ => hst⟩

theorem disc_terminate (h : Ready s) : Disc (s.terminate env st) := by
  unfold Rep.terminate
  split
  · rename_i hd
    have hcf : s.cancelFlag = false := by
      simp only [Bool.and_eq_true, Bool.not_eq_true'] at hd
      exact hd.2
    have hk : s.state = .kNone := h.2.2.2.resolve_right fun h' => by simp [hcf] at h'
    dsimp only
    split
    · exact ⟨h.1, busy_vers h.2.1 h.2.2.1 hk⟩
    · exact disc_handleReplicationDone h
  · exact disc_handleReplicationDone h

/-! ## Reading on -/

theorem disc_directRead (h : Ready s) (hrs : s.rs = false) : Disc (s.directRead env) := by
  unfold Rep.directRead
  split
  · exact disc_terminate (ready_touchOwner h)
  · obtain ⟨⟨hmo, hc⟩, hq, ho, -⟩ := h
    have hdf := mode_direct hmo hrs
    exact ⟨⟨.inl ⟨hrs, hdf⟩, hc⟩, busy_peer hq ho .read⟩

/-- `Enqueue` of a transition from `kNone`, with no cancel pending, claims it and posts
`Handle()`. -/
theorem disc_enqueue {inState : State} (hc : Core s) (hq : Quiet s) (ho : s.owner = true)
    (hrs : s.rs = true) (hk : s.state = .kNone) (hpc : s.pendingCancel = false)
    (hin : inState ≠ .kNone) : Disc (s.enqueue oc inState) := by
  obtain ⟨hmo, hrest⟩ := hc
  obtain ⟨hw, hp, hs, hv, hr, hpq⟩ := hq
  obtain ⟨hpo, hsv, hcf, -⟩ := mode_recovery hmo hrs
  have hpf : s.queued = false ∧ s.runNow = false := by
    cases hqq : s.queued <;> cases hrn : s.runNow <;> simp_all [Rep.posted]
  have hb : ∀ t : Rep, t.pendingCancel = false → t.state = inState → t.owner = true →
      t.waiting = false → t.peerOp = none → t.storeWrite = false → t.changeVers = false →
      t.readInFlight = false → Busy t := by
    intro t hpc hst ho hw hp hs hv hr
    exact ⟨fun h => by simp [ho] at h, fun h => by simp [hw] at h, fun h => absurd hp h,
      fun h => by simp [hs] at h, fun h => by simp [hv] at h, fun h => by simp [hr] at h,
      fun _ _ => ⟨⟨hw, hp, hs, hv, hr, by simp [Rep.posted]⟩, hst ▸ hin⟩⟩
  unfold Rep.enqueue
  rw [if_neg (by simp [hpc]), if_neg (by simp [hk])]
  unfold Rep.post
  split
  · rename_i hct
    exact ⟨⟨.inr ⟨hrs, hpo, hsv, hcf, fun _ => by simp_all, fun h => by simp [hpf.2] at h⟩, hrest⟩,
      hb _ hpc rfl ho hw hp hs hv hr⟩
  · exact ⟨⟨.inr ⟨hrs, hpo, hsv, hcf, fun h => by simp [hpf.1] at h, fun _ => hpf.1⟩, hrest⟩,
      hb _ hpc rfl ho hw hp hs hv hr⟩

theorem disc_rsRead (h : Ready s) (hrs : s.rs = true) : Disc (s.rsRead oc) := by
  unfold Rep.rsRead
  split
  · exact disc_of_ready h
  · rename_i hpc
    have hpc : s.pendingCancel = false := by simpa using hpc
    exact disc_enqueue h.1 h.2.1 h.2.2.1 hrs (ready_state h (.inr hpc)) hpc nofun

theorem disc_read (h : Ready s) : Disc (s.read env oc) := by
  unfold Rep.read
  cases hrs : s.rs
  · simp only [Bool.false_eq_true, ↓reduceIte]
    exact disc_directRead h hrs
  · simp only [↓reduceIte]
    exact disc_rsRead h hrs

theorem disc_directStart {cfg : Cfg} (hc : Core s) (hq : Quiet s) (ho : s.owner = true)
    (hrs : s.rs = false) : Disc (s.directStart cfg) := by
  obtain ⟨hmo, hrest⟩ := hc
  have hdf := mode_direct hmo hrs
  exact ⟨⟨.inl ⟨hrs, hdf⟩, hrest⟩, busy_peer hq ho .metadata⟩

theorem disc_handleStartDone (h : Ready s) : Disc (s.handleStartDone env oc) := by
  unfold Rep.handleStartDone
  split
  · exact disc_terminate h
  · rename_i hc
    have hcf : s.cancelFlag = false := by simp_all
    have h' := ready_touchOwner h
    dsimp only
    split
    · exact disc_terminate h
    · split
      · exact disc_terminate h'
      · split
        · exact disc_die (disc_of_ready h') (by decide)
        · exact disc_read (ready_fileHandle h' hcf)

/-! ## Read and write completions -/

theorem ready_alignWrite (h : Ready s) : Ready s.alignWrite ∧ s.alignWrite.state = s.state := by
  unfold Rep.alignWrite
  dsimp only
  split
  · split
    · exact ⟨h, rfl⟩
    · exact ⟨h, rfl⟩
  · exact ⟨h, rfl⟩

theorem disc_writeChunk (h : Ready s) (hk : s.state = .kNone) : Disc (s.writeChunk env) := by
  unfold Rep.writeChunk
  dsimp only
  split
  · exact disc_terminate h
  · exact ⟨h.1, busy_store h.2.1 h.2.2.1 hk⟩

theorem disc_readDoneFinish (h : Ready s) (hk : s.state = .kNone) :
    Disc (s.readDoneFinish env) := by
  unfold Rep.readDoneFinish
  dsimp only
  split
  · exact disc_terminate h
  · split
    · exact disc_die (disc_of_ready h) (by decide)
    · obtain ⟨ha, hka⟩ := ready_alignWrite h
      exact disc_writeChunk ha (hka.trans hk)

theorem disc_handleReadDone (h : Ready s) : Disc (s.handleReadDone env oc) := by
  unfold Rep.handleReadDone
  split
  · exact disc_terminate h
  · rename_i hcf
    have hk : s.state = .kNone := h.2.2.2.resolve_right fun h' => hcf h'.1
    dsimp only
    split
    · split
      · rename_i hv
        obtain ⟨⟨hmo, hc⟩, hq, ho, hkk⟩ := h
        have hrs : s.rs = false := by
          cases hrs : s.rs
          · rfl
          · simp [(mode_recovery hmo hrs).2.1] at hv
        have hdf := mode_direct hmo hrs
        have hr : Ready { s with skipVerify := false, retries := s.retries + 1 } :=
          ⟨⟨.inl ⟨hrs, hdf⟩, hc⟩, hq, ho, hkk⟩
        exact disc_read hr
      · exact disc_readDoneFinish h hk
    · split
      · exact disc_readDoneFinish h hk
      · exact disc_readDoneFinish h hk

theorem disc_handleWriteDone {n : Int} (h : Disc s) (hs : s.storeWrite = true) :
    Disc (s.handleWriteDone env oc st n) := by
  obtain ⟨hc, hb⟩ := h
  obtain ⟨hq, hk⟩ := hb.2.2.2.1 hs
  have ho := owner_of_busy hb fun q => by simp [q.2.2.1] at hs
  have hr : Ready { s with storeWrite := false } := ⟨hc, hq, ho, .inl hk⟩
  unfold Rep.handleWriteDone
  dsimp only
  split
  · exact disc_terminate hr
  · split
    · exact disc_handleReadDone hr
    · exact disc_read hr

/-! ## Cancel -/

theorem core_cancel (hc : Core s) (hrc : s.rs = true → s.pendingCancel = true) :
    Core { s with
      cancelFlag := true
      fileHandle := false
      releases := if s.fileHandle then s.releases ++ [(-ECANCELED, true)] else s.releases } := by
  obtain ⟨hmo, hre, ⟨hfh, hrl, hneg, hresp, hoad⟩, hcl⟩ := hc
  refine ⟨?_, hre, ⟨nofun, ?_, ?_, hresp, hoad⟩, hcl⟩
  · rcases hmo with ⟨hrs, hdf⟩ | ⟨hrs, hpo, hsv, -, hqc, hrq⟩
    · exact .inl ⟨hrs, hdf⟩
    · exact .inr ⟨hrs, hpo, hsv, fun _ => hrc hrs, hqc, hrq⟩
  · cases hf : s.fileHandle
    · rcases hrl with h | ⟨h, -⟩ <;> simp [h]
    · simp [(hfh hf).2.2]
  · intro p hp
    cases hf : s.fileHandle
    · simp only [hf, Bool.false_eq_true, ↓reduceIte] at hp
      exact hneg p hp
    · simp only [hf, ↓reduceIte, (hfh hf).2.2, List.nil_append, List.mem_singleton] at hp
      subst hp
      exact .inl (by decide)

theorem disc_cancelBase (h : Disc s) (hrc : s.rs = true → s.pendingCancel = true) :
    Disc (s.cancelBase env) := by
  obtain ⟨hc, hb⟩ := h
  have hc' := core_cancel hc hrc
  unfold Rep.cancelBase
  dsimp only
  split
  · rename_i hw
    obtain ⟨hq, hk⟩ := hb.2.1 hw
    have ho := owner_of_busy hb fun q => by simp [q.1] at hw
    exact disc_terminate ⟨hc', hq, ho, .inl hk⟩
  · exact ⟨hc', hb⟩

/-! ## Recovery: the client thread's handlers -/

/-- A recovery handler runs with nothing outstanding, for a replicator that still owns its op. -/
def Handling (s : Rep) : Prop := Core s ∧ Quiet s ∧ s.owner = true ∧ s.rs = true

theorem disc_of_handling (h : Handling s) : Disc s :=
  ⟨h.1, busy_of_quiet h.2.1 fun ho => by simp [h.2.2.1] at ho⟩

theorem handling_touchOwner (h : Handling s) : Handling s.touchOwner := by
  obtain ⟨⟨hmo, hre, ⟨hfh, hrl, hneg, hresp, hoad⟩, hcl⟩, hq, ho, hrs⟩ := h
  exact ⟨⟨hmo, hre, ⟨hfh, hrl, hneg, hresp, by simp [Rep.touchOwner, ho, hoad]⟩, hcl⟩, hq, ho, hrs⟩

theorem busy_read (h : Quiet s) (ho : s.owner = true) (hk : s.state = .kRead) :
    Busy { s with readInFlight := true } := by
  obtain ⟨hw, hp, hs, hv, -, hpc⟩ := h
  exact ⟨fun h => by simp [ho] at h, fun h => by simp [hw] at h, fun h => absurd hp h,
    fun h => by simp [hs] at h, fun h => by simp [hv] at h,
    fun _ => ⟨⟨hw, hp, hs, hv, rfl, hpc⟩, hk⟩, fun h h' => by simp [hpc h] at h'⟩

/-- A message that starts with `q` is no `Enqueue` or `Handle` die when `q` parts ways with
both of theirs. -/
theorem not_protocolDie_of_lead {m : String} (q : String) (hq : q.data <+: m.data)
    (h1 : ¬q.data <+: "recovery: invalid cancel enqueue".data ∧
      ¬"recovery: invalid cancel enqueue".data <+: q.data)
    (h2 : ¬q.data <+: "recovery: invalid state".data ∧
      ¬"recovery: invalid state".data <+: q.data) : ¬ProtocolDie m := by
  rintro (h | h)
  · exact (List.prefix_or_prefix_of_prefix hq h).elim h1.1 h1.2
  · exact (List.prefix_or_prefix_of_prefix hq h).elim h2.1 h2.2

theorem not_protocolDie_of_stripeReport {cfg : Cfg} {b : List UInt8} {m : String}
    (h : s.stripeReport cfg b = .error m) : ¬ProtocolDie m := by
  rcases Rep.stripeReport_error h with rfl | rfl | rfl | hp
  · decide
  · decide
  · decide
  · exact not_protocolDie_of_lead _ hp (by decide) (by decide)

theorem disc_handleCompletion {md : Bool} (h : Handling s)
    (hu : s.state = .kNone → s.locationValid = false) : Disc (s.handleCompletion env oc md) := by
  obtain ⟨⟨hmo, hre, hl, hd, hun⟩, hq, ho, hrs⟩ := h
  have hc : Core { s with unclaimed := s.unclaimed || s.state == .kNone } :=
    ⟨hmo, hre, hl, hd, fun h => by
      simp only [Bool.or_eq_true, beq_iff_eq] at h
      exact h.elim hun hu⟩
  unfold Rep.handleCompletion
  dsimp only
  split
  · exact ⟨hc, busy_of_quiet hq fun h => by simp [ho] at h⟩
  · have hrf := mode_recovery hmo hrs
    have hr : Ready { s with unclaimed := s.unclaimed || s.state == .kNone, state := .kNone } :=
      ⟨⟨.inr ⟨hrs, hrf⟩, hc.2⟩, hq, ho, .inl rfl⟩
    split
    · exact disc_handleStartDone hr
    · exact disc_handleReadDone hr

theorem disc_handleStart (h : Handling s) (hk : s.state = .kStart) :
    Disc (s.handleStart env oc) := by
  have hu : s.state = .kNone → s.locationValid = false := fun h' => by simp [hk] at h'
  -- every path sets only `mdStatus`, around a `touchOwner` or not, before the completion
  have k0 (a : Int) : Disc ({ s with mdStatus := a }.handleCompletion env oc true) :=
    disc_handleCompletion h hu
  have k1 (a m : Int) :
      Disc ({ { s with mdStatus := a }.touchOwner with mdStatus := m }.handleCompletion env oc true) :=
    disc_handleCompletion (handling_touchOwner h) hu
  unfold Rep.handleStart
  split
  · exact disc_die (disc_of_handling h) (by decide)
  · dsimp only
    repeat' split
    all_goals first | with_reducible exact k0 _ | exact k1 _ _

theorem disc_handleRead (h : Handling s) (hk : s.state = .kRead) :
    Disc (s.handleRead env oc) := by
  have hu : s.state = .kNone → s.locationValid = false := fun h' => by simp [hk] at h'
  have hd := h
  obtain ⟨⟨hmo, ⟨hr1, hr2, hr3⟩, hl, hcl⟩, hq, ho, hrs⟩ := hd
  have hr : s.readInFlight = false := hq.2.2.2.2.1
  have hrr : s.readerReads = 0 := by
    by_contra h0
    simp [hr2 (Nat.pos_of_ne_zero h0)] at hr
  have hcp : s.readerClose = true → s.pendingClose = true := fun h1 => by
    cases h2 : s.pendingClose
    · simp [(hr3 h1 h2).2] at hr
    · rfl
  have hrf := mode_recovery hmo hrs
  unfold Rep.handleRead
  split
  · exact disc_handleCompletion h hu
  · dsimp only
    split
    · refine disc_handleCompletion ⟨⟨.inr ⟨hrs, hrf⟩, ⟨hr1, fun h => ?_, fun h1 h2 => ?_⟩, hl, hcl⟩,
        ⟨hq.1, hq.2.1, hq.2.2.1, hq.2.2.2.1, rfl, hq.2.2.2.2.2⟩, ho, hrs⟩ hu
      · dsimp only at h
        omega
      · dsimp only at h1 h2
        simp [hcp h1] at h2
    · refine ⟨⟨.inr ⟨hrs, hrf⟩, ⟨?_, fun _ => rfl, fun h1 h2 => ?_⟩, hl, hcl⟩, busy_read hq ho hk⟩
      · dsimp only
        omega
      · dsimp only at h1 h2
        simp [hcp h1] at h2

theorem disc_doneFinish {cfg : Cfg} {inOffset ps : Int} {buf : Option (List UInt8)} {ok : Bool}
    (h : Handling s) (hk : s.state = .kRead) :
    Disc (s.doneFinish cfg env oc st inOffset buf ok ps) := by
  have hu : s.state = .kNone → s.locationValid = false := fun h' => by simp [hk] at h'
  have hd := disc_of_handling h
  unfold Rep.doneFinish
  split
  · exact disc_die hd (not_protocolDie_of_lead " recovery: file: "
      (by simp only [String.data_append, List.append_assoc]; exact List.prefix_append _ _)
      (by decide) (by decide))
  · split
    · exact hd
    · split
      · exact disc_die hd (by decide)
      · split
        · split
          · split
            · exact disc_die hd (not_protocolDie_of_stripeReport ‹_›)
            · exact disc_handleCompletion h hu
          · exact disc_handleCompletion h hu
        · exact disc_handleCompletion h hu

theorem disc_doneRead {cfg : Cfg} {inOffset : Int} {b : List UInt8} (h : Handling s)
    (hk : s.state = .kRead) : Disc (s.doneRead cfg env oc inOffset b) := by
  obtain ⟨⟨hmo, ⟨hr1, hr2, -⟩, hl, hcl⟩, hq, ho, hrs⟩ := id h
  have hrf := mode_recovery hmo hrs
  unfold Rep.doneRead
  dsimp only
  split
  · unfold Rep.doneChecksums
    split
    all_goals
      refine disc_doneFinish ⟨⟨.inr ⟨hrs, hrf⟩, ⟨hr1, hr2, fun h1 h2 => ?_⟩, hl, hcl⟩, hq, ho, hrs⟩ hk
      dsimp only at h1 h2
      simp [h1] at h2
  · split
    · exact disc_handleRead h hk
    · unfold Rep.doneChecksums
      split
      all_goals exact disc_doneFinish h hk

/-- The reader's `Done` upcall. `hpc` and `hrc` say what the three reader events guarantee:
with no close pending nothing is counted outstanding and no close is owed, and a close still
owed but no longer awaited leaves only the `Read` in flight. -/
theorem disc_completionDone {cfg : Cfg} {inOffset inSize : Int} {buf : Option (List UInt8)}
    (h : Disc s) (hrs : s.rs = true)
    (hpc : s.pendingClose = false → s.readerReads = 0 ∧ s.readerClose = false)
    (hrc : s.readerClose = true → s.readerReads = 0 ∧ s.readInFlight = true) :
    Disc (s.completionDone cfg env oc st inOffset inSize buf) := by
  obtain ⟨⟨hmo, ⟨hr1, hr2, hr3⟩, hl, hcl⟩, hb⟩ := id h
  have hrf := mode_recovery hmo hrs
  unfold Rep.completionDone
  by_cases h1 : buf.isSome ∧ (inOffset < 0 ∨ inSize > s.rdNumBytes ∨ s.readInFlight = false)
  · rw [if_pos h1]; exact disc_die h (by decide)
  rw [if_neg h1]
  by_cases hpcl : s.pendingClose = true
  · rw [if_pos hpcl]
    split
    · exact h
    · exact ⟨⟨.inr ⟨hrs, hrf⟩, ⟨hr1, hr2, fun h1 _ => hrc h1⟩, hl, hcl⟩, hb⟩
  rw [if_neg hpcl]
  have ⟨hrr, hrcl⟩ := hpc (by simpa using hpcl)
  by_cases hR : (!s.readInFlight) = true
  · rw [if_pos hR]; split <;> exact h
  rw [if_neg hR]
  have hR : s.readInFlight = true := by simpa using hR
  obtain ⟨hq, hk⟩ := hb.2.2.2.2.2.1 hR
  have ho := owner_of_busy hb fun q => by simp [q.2.2.2.2.1] at hR
  have hh : Handling { s with readInFlight := false } :=
    ⟨⟨.inr ⟨hrs, hrf⟩, ⟨hr1, fun h => by dsimp only at h; omega,
      fun h1 => by dsimp only at h1; simp [hrcl] at h1⟩, hl, hcl⟩, hq, ho, hrs⟩
  dsimp only
  split
  · exact disc_of_handling hh
  · split
    · split
      · exact disc_doneRead hh hk
      · exact disc_doneFinish hh hk
    · exact disc_doneFinish hh hk

theorem ready_cancelled (hc : Core s) (hq : Quiet s) (ho : s.owner = true)
    (hpc : s.pendingCancel = true) (hp : s.posted = false) :
    Ready { s with
      cancelFlag := true
      fileHandle := false
      releases := if s.fileHandle then s.releases ++ [(-ECANCELED, true)] else s.releases } :=
  ⟨core_cancel hc fun _ => hpc, hq, ho, .inr ⟨rfl, hp⟩⟩

theorem cancelBase_of_waiting_false (h : s.waiting = false) :
    s.cancelBase env = { s with
      cancelFlag := true
      fileHandle := false
      releases := if s.fileHandle then s.releases ++ [(-ECANCELED, true)] else s.releases } := by
  unfold Rep.cancelBase
  simp [h]

/-- `HandleCancel` with the reader detached: once the queue is drained it cancels, and fails
whatever transition is still claimed. -/
theorem disc_handleCancel (h : Disc s) (hrs : s.rs = true) (hrn : s.runNow = false)
    (hpc : s.pendingCancel = true) (hown : s.owner = false → s.state = .kNone) :
    Disc (s.handleCancel env oc) := by
  obtain ⟨⟨hmo, -, hl, hcl⟩, hb⟩ := h
  have hrf := mode_recovery hmo hrs
  have hd1 : Disc { s with readerRegistered := false, readerReads := 0, readerClose := false } :=
    ⟨⟨.inr ⟨hrs, hrf⟩, ⟨Nat.zero_le _, fun h => absurd h (lt_irrefl 0), nofun⟩, hl, hcl⟩, hb⟩
  unfold Rep.handleCancel
  dsimp only
  by_cases h1 : env.shutdownUnref = true ∧ s.pendingClose = true
  · rw [if_pos h1]
    exact ⟨⟨.inr ⟨hrs, hrf⟩, ⟨Nat.zero_le _, fun h => absurd h (lt_irrefl 0), nofun⟩, hl, hcl⟩, hb⟩
  rw [if_neg h1]
  by_cases hqd : s.queued = true
  · rw [if_pos hqd]; exact hd1
  rw [if_neg hqd]
  have hp : s.posted = false := by simp_all [Rep.posted]
  by_cases hw : s.waiting = true
  · rw [if_pos (.inl hw)]
    exact disc_cancelBase hd1 fun _ => hpc
  · have hw : s.waiting = false := by simpa using hw
    rw [cancelBase_of_waiting_false
      (s := { s with readerRegistered := false, readerReads := 0, readerClose := false }) hw]
    dsimp only
    split
    · exact ⟨core_cancel hd1.1 fun _ => hpc, hb⟩
    · rename_i hk
      have hk : s.state ≠ .kNone := fun h' => hk (.inr h')
      have ho : s.owner = true := by
        cases ho : s.owner
        · exact absurd (hown ho) hk
        · rfl
      have hs : s.storeWrite = false := by
        cases h' : s.storeWrite
        · rfl
        · exact absurd (hb.2.2.2.1 h').2 hk
      have hv : s.changeVers = false := by
        cases h' : s.changeVers
        · rfl
        · exact absurd (hb.2.2.2.2.1 h').2 hk
      have hpq : s.posted = true → s.pendingCancel = true := fun _ => hpc
      split
      · exact disc_handleReadDone (ready_cancelled (s := { s with
            readerRegistered := false
            readerReads := 0
            readerClose := false
            readInFlight := false
            rdStatus := -ETIMEDOUT })
          ⟨.inr ⟨hrs, hrf⟩, ⟨Nat.zero_le _, fun h => absurd h (lt_irrefl 0), nofun⟩, hl, hcl⟩
          ⟨hw, hrf.1, hs, hv, rfl, hpq⟩ ho hpc hp)
      · rename_i hR
        have hR : s.readInFlight = false := by simpa using hR
        exact disc_handleStartDone (ready_cancelled hd1.1 ⟨hw, hrf.1, hs, hv, hR, hpq⟩ ho hpc hp)

/-! ## Posting `Handle()` -/

theorem quiet_unpost (h : Quiet s) : Quiet { s with queued := false, runNow := false } :=
  ⟨h.1, h.2.1, h.2.2.1, h.2.2.2.1, h.2.2.2.2.1, nofun⟩

theorem core_unpost (hc : Core s) (hrs : s.rs = true) :
    Core { s with queued := false, runNow := false } := by
  obtain ⟨hmo, hrest⟩ := hc
  obtain ⟨hpo, hsv, hcf, -⟩ := mode_recovery hmo hrs
  exact ⟨.inr ⟨hrs, hpo, hsv, hcf, nofun, nofun⟩, hrest⟩

/-- Taking a posted `Handle()` off the queue leaves what it will find. -/
theorem busy_unpost (hb : Busy s) (hp : s.posted = true) :
    Busy { s with queued := false, runNow := false } := by
  obtain ⟨h1, h2, h3, h4, h5, h6, -⟩ := hb
  refine ⟨fun ho => ⟨quiet_unpost (h1 ho).1, fun _ => (h1 ho).2 (.inl hp)⟩, fun hw => ?_,
    fun hp' => quiet_unpost (h3 hp'), fun hs => ?_, fun hv => ?_, fun hr => ?_, nofun⟩
  · have := quiet_unpost (h2 hw).1
    exact ⟨this, (h2 hw).2⟩
  · have := quiet_unpost (h4 hs).1
    exact ⟨this, (h4 hs).2⟩
  · have := quiet_unpost (h5 hv).1
    exact ⟨this, (h5 hv).2⟩
  · have := quiet_unpost (h6 hr).1
    exact ⟨this, (h6 hr).2⟩

/-- The posted `Handle()`, queued or inline, finds a cancel or the state its poster claimed. -/
theorem disc_handlePosted (h : Disc s) (hrs : s.rs = true) (hp : s.posted = true) :
    Disc ({ s with queued := false, runNow := false }.handle env oc) := by
  obtain ⟨hc, hb⟩ := h
  have hd : Disc { s with queued := false, runNow := false } :=
    ⟨core_unpost hc hrs, busy_unpost hb hp⟩
  have hown : s.owner = false → s.state = .kNone := fun ho => (hb.1 ho).2 (.inl hp)
  unfold Rep.handle
  split
  · exact disc_handleCancel hd hrs rfl ‹_› hown
  · rename_i hpc
    have hpc : s.pendingCancel = false := by simpa using hpc
    obtain ⟨hq, hk⟩ := hb.2.2.2.2.2.2 hp hpc
    have ho : s.owner = true := by
      cases ho : s.owner
      · exact absurd (hown ho) hk
      · rfl
    have hh : Handling { s with queued := false, runNow := false } := ⟨hd.1, hq, ho, hrs⟩
    split
    · exact disc_handleStart hh ‹_›
    · exact disc_handleRead hh ‹_›
    · exact absurd ‹_› hk

theorem unpost_of_inline (h : s.queued = false) :
    { s with runNow := false } = { s with queued := false, runNow := false } := by
  simp [h]

theorem unpost_of_queued (h : s.runNow = false) :
    { s with queued := false } = { s with queued := false, runNow := false } := by
  simp [h]

theorem quiet_postCancel (h : Quiet s) (q r : Bool) :
    Quiet { s with pendingCancel := true, queued := q, runNow := r } :=
  ⟨h.1, h.2.1, h.2.2.1, h.2.2.2.1, h.2.2.2.2.1, fun _ => rfl⟩

/-- A cancel posted beside whatever is outstanding. -/
theorem busy_postCancel (hb : Busy s) (hpc : s.pendingCancel = false) (q r : Bool) :
    Busy { s with pendingCancel := true, queued := q, runNow := r } := by
  obtain ⟨h1, h2, h3, h4, h5, h6, -⟩ := hb
  refine ⟨fun ho => ⟨quiet_postCancel (h1 ho).1 q r, fun _ => (h1 ho).2 (.inr hpc)⟩,
    fun hw => ?_, fun hp => quiet_postCancel (h3 hp) q r, fun hs => ?_, fun hv => ?_,
    fun hr => ?_, fun _ h => by simp at h⟩
  · have := quiet_postCancel (h2 hw).1 q r
    exact ⟨this, (h2 hw).2⟩
  · have := quiet_postCancel (h4 hs).1 q r
    exact ⟨this, (h4 hs).2⟩
  · have := quiet_postCancel (h5 hv).1 q r
    exact ⟨this, (h5 hv).2⟩
  · have := quiet_postCancel (h6 hr).1 q r
    exact ⟨this, (h6 hr).2⟩

/-- `RSReplicatorImpl::Cancel` posts the cancel for the state it finds, once. -/
theorem disc_rsCancel (h : Disc s) (hrs : s.rs = true) (hrn : s.runNow = false) :
    Disc (s.rsCancel false) := by
  obtain ⟨⟨hmo, hrest⟩, hb⟩ := h
  obtain ⟨hpo, hsv, -, hqc, -⟩ := mode_recovery hmo hrs
  unfold Rep.rsCancel
  split
  · exact ⟨⟨hmo, hrest⟩, hb⟩
  · rename_i hpc
    have hpc : s.pendingCancel = false := by simpa using hpc
    unfold Rep.enqueue
    rw [if_pos rfl, if_neg (by simp)]
    unfold Rep.post
    split
    · exact ⟨⟨.inr ⟨hrs, hpo, hsv, fun _ => rfl, fun _ => by simp_all, fun h => by simp [hrn] at h⟩,
        hrest⟩, busy_postCancel hb hpc true s.runNow⟩
    · rename_i hct
      have hq : s.queued = false := by
        cases hq : s.queued
        · rfl
        · simp_all
      exact ⟨⟨.inr ⟨hrs, hpo, hsv, fun _ => rfl, fun h => by simp [hq] at h, fun _ => hq⟩, hrest⟩,
        busy_postCancel hb hpc s.queued true⟩

theorem disc_cancel (h : Disc s) (hrn : s.runNow = false) : Disc (s.cancel env) := by
  unfold Rep.cancel
  dsimp only
  by_cases hrs : s.rs = true
  · rw [if_pos hrs]
    exact disc_rsCancel h hrs hrn
  · rw [if_neg hrs]
    exact disc_cancelBase h fun h' => absurd h' hrs

/-! ## Starting -/

theorem disc_rsStart (h : Ready s) (hrs : s.rs = true) : Disc (s.rsStart oc env) := by
  unfold Rep.rsStart
  split
  · exact disc_of_ready h
  · rename_i hpc
    have hpc : s.pendingCancel = false := by simpa using hpc
    have hk : s.state = .kNone := ready_state h (.inr hpc)
    obtain ⟨⟨hmo, hre, hl, hcl⟩, hq, ho, -⟩ := ready_touchOwner h
    obtain ⟨hpo, -, hcf, hqc, hrq⟩ := mode_recovery hmo hrs
    have hc : Core { s.touchOwner with
        mdChunkSize := CHUNKSIZE
        mdChunkVersion := s.touchOwner.opChunkVersion
        mdStatus := 0
        rdStatus := 0
        rdNumBytes := 0
        skipVerify := false } :=
      ⟨.inr ⟨hrs, hpo, rfl, hcf, hqc, hrq⟩, hre, hl, hcl⟩
    dsimp only
    split
    · rename_i hlv
      exact disc_handleCompletion ⟨hc, hq, ho, hrs⟩ fun _ => by simpa using hlv
    · exact disc_enqueue hc hq ho hrs hk hpc nofun

theorem disc_start {cfg : Cfg} (h : Ready s) : Disc (s.start cfg env oc) := by
  unfold Rep.start
  cases hrs : s.rs
  · simp only [Bool.false_eq_true, ↓reduceIte]
    exact disc_directStart h.1 h.2.1 h.2.2.1 hrs
  · simp only [↓reduceIte]
    exact disc_rsStart h hrs

theorem busy_waiting (h : Quiet s) (ho : s.owner = true) (hk : s.state = .kNone) :
    Busy { s with waiting := true } := by
  obtain ⟨-, hp, hs, hv, hr, hpc⟩ := h
  exact ⟨fun h => by simp [ho] at h, fun _ => ⟨⟨rfl, hp, hs, hv, hr, hpc⟩, hk⟩, fun h => absurd hp h,
    fun h => by simp [hs] at h, fun h => by simp [hv] at h, fun h => by simp [hr] at h,
    fun h h' => by simp [hpc h] at h'⟩

theorem disc_run {cfg : Cfg} (h : Ready s) (hk : s.state = .kNone) : Disc (s.run cfg env) := by
  unfold Rep.run
  dsimp only
  split
  · exact disc_terminate h
  · split
    · exact disc_start h
    · exact ⟨h.1, busy_waiting h.2.1 h.2.2.1 hk⟩

theorem ready_create {op : ReplicateChunkOp} {ct lv : Bool} {rsz : Int} :
    Ready (Rep.create op ct lv rsz) := by
  refine ⟨⟨?_, ⟨Nat.zero_le _, fun h => absurd h (lt_irrefl 0), nofun⟩,
    ⟨nofun, .inl rfl, nofun, rfl, rfl⟩, nofun, nofun⟩, ⟨rfl, rfl, rfl, rfl, rfl, nofun⟩, rfl, .inl rfl⟩
  unfold Mode DirectFrame RecoveryFrame Rep.create
  cases op.locationValid <;> simp

/-! ## Every step keeps the discipline -/

/-- The completion of a peer op finds the direct replicator with nothing else outstanding. -/
theorem ready_peerDone (h : Disc s) (hp : s.peerOp ≠ none) :
    s.rs = false ∧ Ready { s with peerOp := none } := by
  obtain ⟨⟨hmo, hc⟩, hb⟩ := h
  have hrs : s.rs = false := by
    cases hrs : s.rs
    · rfl
    · exact absurd (mode_recovery hmo hrs).1 hp
  have hdf := mode_direct hmo hrs
  have ho := owner_of_busy hb fun q => hp q.2.1
  exact ⟨hrs, ⟨.inl ⟨hrs, hdf⟩, hc⟩, hb.2.2.1 hp, ho, .inl hdf.1⟩

/-- Every `die` a reader event reaches needs a recovery replicator. -/
theorem rs_of_reader (h : Disc s) (hr : s.readerRegistered = true ∨ s.readerClose = true ∨
    0 < s.readerReads) : s.rs = true := by
  cases hrs : s.rs
  · have hdf := mode_direct h.1.1 hrs
    rcases hr with hr | hr | hr <;> simp [hdf.2.2.2.2.2.1, hdf.2.2.2.2.2.2.1, hdf.2.2.2.2.2.2.2] at hr
  · rfl

/-- Only a recovery replicator posts `Handle()`. -/
theorem rs_of_posted (h : Disc s) (hp : s.posted = true) : s.rs = true := by
  cases hrs : s.rs
  · obtain ⟨-, -, -, hq, hrn, -⟩ := mode_direct h.1.1 hrs
    simp [Rep.posted, hq, hrn] at hp
  · rfl

theorem disc_step {cfg : Cfg} {e : Event} {s' : Rep} (h : Disc s)
    (hs : step cfg env e s = some s') : Disc s' := by
  obtain ⟨-, he, rfl⟩ := step_eq_some hs
  obtain ⟨⟨hmo, hre, hl, hcl⟩, hb⟩ := id h
  cases e with
  | handleInline =>
    have hrs : s.rs = true := by
      cases hrs : s.rs
      · simp [Event.enabled, (mode_direct hmo hrs).2.2.2.2.1] at he
      · rfl
    have he : s.runNow = true := he
    have hq : s.queued = false := (mode_recovery hmo hrs).2.2.2.2 he
    show Disc ({ s with runNow := false }.handle env true)
    rw [unpost_of_inline hq]
    exact disc_handlePosted h hrs (by simp [Rep.posted, he])
  | handleQueued =>
    simp only [Event.enabled, Bool.and_eq_true, Bool.not_eq_true'] at he
    have hrs : s.rs = true := by
      cases hrs : s.rs
      · simp [(mode_direct hmo hrs).2.2.2.1] at he
      · rfl
    show Disc ({ s with queued := false }.handle env true)
    rw [unpost_of_queued he.1]
    exact disc_handlePosted h hrs (by simp [Rep.posted, he.2])
  | granted =>
    simp only [Event.enabled, Bool.and_eq_true, Bool.not_eq_true'] at he
    obtain ⟨hq, hk⟩ := hb.2.1 he.2
    have ho := owner_of_busy hb fun q => by simp [q.1] at he
    exact disc_start ⟨⟨hmo, hre, hl, hcl⟩, hq, ho, .inl hk⟩
  | metadataDone =>
    simp only [Event.enabled, Bool.and_eq_true, beq_iff_eq] at he
    exact disc_handleStartDone (ready_peerDone h (by simp [he.2])).2
  | readDone =>
    simp only [Event.enabled, Bool.and_eq_true, beq_iff_eq] at he
    exact disc_handleReadDone (ready_peerDone h (by simp [he.2])).2
  | writeDone =>
    simp only [Event.enabled, Bool.and_eq_true] at he
    exact disc_handleWriteDone h he.2
  | changeVersDone =>
    simp only [Event.enabled, Bool.and_eq_true] at he
    obtain ⟨hq, hk⟩ := hb.2.2.2.2.1 he.2
    have ho := owner_of_busy hb fun q => by simp [q.2.2.2.1] at he
    exact disc_handleReplicationDone ⟨⟨hmo, hre, hl, hcl⟩, hq, ho, .inl hk⟩
  | cancel =>
    simp only [Event.enabled, Bool.not_eq_true'] at he
    exact disc_cancel h he
  | readerDone =>
    simp only [Event.enabled, Bool.and_eq_true, decide_eq_true_eq] at he
    have hrs := rs_of_reader h (.inr (.inr he.2))
    have hrf := mode_recovery hmo hrs
    obtain ⟨hr1, hr2, hr3⟩ := hre
    have h1 : s.readerReads = 1 := by omega
    have hc : s.readerClose = true → s.pendingClose = false → False := fun h1' h2 => by
      have := (hr3 h1' h2).1
      omega
    refine disc_completionDone ⟨⟨.inr ⟨hrs, hrf⟩, ⟨by dsimp only; omega,
      fun _ => hr2 he.2, fun h1' h2 => (hc h1' h2).elim⟩, hl, hcl⟩, hb⟩ hrs
      (fun h2 => ⟨by dsimp only; omega, ?_⟩) fun _ => ⟨by dsimp only; omega, hr2 he.2⟩
    cases hcl' : s.readerClose
    · rfl
    · exact (hc hcl' h2).elim
  | closeDone =>
    simp only [Event.enabled, Bool.and_eq_true] at he
    have hrs := rs_of_reader h (.inr (.inl he.2))
    have hrf := mode_recovery hmo hrs
    obtain ⟨hr1, hr2, hr3⟩ := hre
    exact disc_completionDone ⟨⟨.inr ⟨hrs, hrf⟩, ⟨hr1, hr2, nofun⟩, hl, hcl⟩, hb⟩
      hrs (fun h2 => ⟨(hr3 he.2 h2).1, rfl⟩) nofun
  | readerNote =>
    simp only [Event.enabled, Bool.and_eq_true, beq_iff_eq, Bool.not_eq_true'] at he
    have hrs := rs_of_reader h (.inl he.1.1.2)
    exact disc_completionDone h hrs (fun _ => ⟨he.1.2, he.2⟩) fun h' => by simp [he.2] at h'

/-- A run from fresh replicators keeps the discipline, whatever its environment and whichever
outstanding operation completes first. -/
theorem disc_reachable_of_fresh {cfg : Cfg} {Init : Rep → Prop} {Ok : Rep → Event → Prop}
    (hi : ∀ {s}, Init s → ∃ op ct lv rsz, s = Rep.create op ct lv rsz)
    (h : Reachable cfg Init Ok s) : Disc s := by
  induction h with
  | run env h0 =>
    obtain ⟨op, ct, lv, rsz, rfl⟩ := hi h0
    exact disc_run ready_create rfl
  | step _ _ hs ih => exact disc_step ih hs

/-- Every replicator `Replicator::Run` starts keeps the discipline. -/
theorem disc_reachable {cfg : Cfg} {maxReadSize quota ioBufferSize : Int}
    {Ok : Rep → Event → Prop} (h : Reachable cfg (Admitted maxReadSize quota ioBufferSize) Ok s) :
    Disc s :=
  disc_reachable_of_fresh admitted_fresh h

end

end QfsReplicator
