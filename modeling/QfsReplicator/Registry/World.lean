import QfsReplicator.Model.Admission

/-! # The in-flight registry and the replicators it points to

`sInFlightReplications` maps a chunk id to the replicator that replicates it. `Run` registers a
new replicator and pre-empts (cancels) the one registered for the same chunk,
`CancelChunkReplication` unregisters and cancels one, `CancelAll` swaps the whole map out and
cancels what it held, and the destructor erases the entry of its chunk if that entry still
points to itself.

The world holds every replicator ever created, in creation order: a pointer is an index into
that list, `none` is null. Each replicator moves on by the events of its own model (`step`);
its `Cancel()` comes only from the registry, and a `Handle()` due inline runs before anything
else. `CancelAll` is one step: the swap and the whole loop over the swapped-out entries run in
one call on the main thread, so no other call comes in between. A `Handle()` that one of its
`Cancel()`s runs inline touches only its own replicator, so running it after the loop rather than
inside it reaches the same world. A replicator is destroyed once its last reference is gone:
`HandleReplicationDone` drops the one `Replicator::Run` took, the reader's close completion the
one `Done` took for a pending close; a destroyed replicator is never called again.
-/

namespace QfsReplicator

namespace Registry

/-- `InFlightReplications::find`: the pointer stored for chunk `c`, if any. -/
def find (c : Int) : List (Int × Option Nat) → Option (Option Nat)
  | [] => none
  | (k, p) :: m => if k = c then some p else find c m

/-- `InFlightReplications::erase` of the entry of chunk `c`. -/
def erase (c : Int) (m : List (Int × Option Nat)) : List (Int × Option Nat) :=
  m.filter fun e => e.1 != c

/-- The map once chunk `c` maps to `p`: an `insert` that succeeded, or `it->second = p`. -/
def assign (c : Int) (p : Option Nat) (m : List (Int × Option Nat)) : List (Int × Option Nat) :=
  (c, p) :: erase c m

variable {c c' : Int} {p : Option Nat} {m : List (Int × Option Nat)}

theorem mem_erase {e : Int × Option Nat} : e ∈ erase c m ↔ e ∈ m ∧ e.1 ≠ c := by
  simp [erase]

theorem find_erase : find c' (erase c m) = if c' = c then none else find c' m := by
  induction m with
  | nil => simp [erase, find]
  | cons e m ih =>
    obtain ⟨k, q⟩ := e
    simp only [erase, List.filter_cons] at ih ⊢
    by_cases hk : k = c
    · subst hk
      by_cases h : c' = k <;> simp_all [find, eq_comm]
    · by_cases h : c' = c <;> simp_all [find]

@[simp] theorem find_assign_self : find c (assign c p m) = some p := by
  simp [assign, find]

theorem find_assign_of_ne (h : c' ≠ c) : find c' (assign c p m) = find c' m := by
  simp [assign, find, Ne.symm h, find_erase, h]

theorem mem_of_find (h : find c m = some p) : (c, p) ∈ m := by
  induction m with
  | nil => cases h
  | cons e m ih =>
    obtain ⟨k, q⟩ := e
    unfold find at h
    split at h
    · cases h
      subst k
      exact List.mem_cons_self _ _
    · exact List.mem_cons_of_mem _ (ih h)

/-- With one entry per chunk, an entry is what `find` returns. -/
theorem find_of_mem (hn : (m.map Prod.fst).Nodup) (h : (c, p) ∈ m) : find c m = some p := by
  induction m with
  | nil => cases h
  | cons e m ih =>
    obtain ⟨k, q⟩ := e
    rw [List.map_cons, List.nodup_cons] at hn
    rcases List.mem_cons.mp h with h | h
    · cases h
      simp [find]
    · have hk : k ≠ c := fun hk => hn.1 (List.mem_map.mpr ⟨_, h, hk.symm⟩)
      simpa [find, hk] using ih hn.2 h

theorem nodup_erase (h : (m.map Prod.fst).Nodup) : ((erase c m).map Prod.fst).Nodup :=
  h.sublist ((List.filter_sublist _).map _)

theorem nodup_assign (h : (m.map Prod.fst).Nodup) : ((assign c p m).map Prod.fst).Nodup := by
  refine List.nodup_cons.mpr ⟨fun hc => ?_, nodup_erase h⟩
  obtain ⟨e, he, rfl⟩ := List.mem_map.mp hc
  exact (mem_erase.mp he).2 rfl

end Registry

/-- A replicator object: `mChunkId`, the replicator, whether the registry has called its
`Cancel()`, and whether its destructor has run. -/
structure Slot where
  chunkId : Int
  rep : Rep
  cancelled : Bool
  destroyed : Bool

/-- The chunk server's replicators and their registry. -/
structure World where
  /-- Every replicator created so far, in creation order; a pointer is an index. -/
  slots : List Slot
  /-- `sInFlightReplications`. -/
  inFlight : List (Int × Option Nat)
  /-- The message of a `die` outside the replicators. -/
  dead : Option String

/-- The version a replicator is to produce: the op's target version, or `mChunkVersion` when
that is negative. -/
def Rep.aimedVersion (s : Rep) : Int :=
  if s.op.targetVersion < 0 then s.chunkVersion else s.op.targetVersion

namespace World

/-- No replicator yet, an empty registry. -/
def init : World := ⟨[], [], none⟩

/-- Replicator `i` runs `f`. -/
def update (i : Nat) (f : Rep → Rep) (w : World) : World :=
  { w with slots := w.slots.modify (fun sl => { sl with rep := f sl.rep }) i }

/-- `r->Cancel()`, called by the registry on the main thread. -/
def cancel (env : Env) (r : Nat) (w : World) : World :=
  { w with slots := w.slots.modify (fun sl => { sl with rep := sl.rep.cancel env, cancelled := true }) r }

/-- `die(msg)` outside the replicators. -/
def die (msg : String) (w : World) : World := { w with dead := some msg }

/-- `new ReplicatorImpl` (or `RSReplicatorImpl`) for replicator `b`: the next pointer. -/
def push (b : Rep) (w : World) : World :=
  { w with slots := w.slots ++ [Slot.mk b.op.chunkId b false false] }

/-- `ReplicatorImpl::Run` of replicator `n`: register it under its chunk id. An entry already
there is pre-empted: `Cancel()` on the replicator it points to, then the entry points to `n`
(the second `insert` succeeds if that replicator's destructor erased the entry, and otherwise
the entry is overwritten; either way the map then holds `n`). A replicator cancelled meanwhile
terminates; otherwise it asks for its buffers (`Rep.run`). -/
def implRun (cfg : Cfg) (env : Env) (n : Nat) (w : World) : World :=
  match w.slots[n]? with
  | none => w
  | some sl =>
    match Registry.find sl.chunkId w.inFlight with
    | none => { w with inFlight := Registry.assign sl.chunkId (some n) w.inFlight }.update n
        (·.run cfg env)
    | some none => w.die "invalid null entry or an attempt to restart replication"
    | some (some r) =>
      if r = n then w.die "invalid null entry or an attempt to restart replication"
      else
        let w := w.cancel env r
        let w := { w with inFlight := Registry.assign sl.chunkId (some n) w.inFlight }
        if (w.slots[n]?).any (·.rep.cancelFlag) then w.update n (·.terminate env ECANCELED)
        else w.update n (·.run cfg env)

/-- `Replicator::Run(op)`: a rejected op is answered at once; an accepted one gets a new
replicator (`new ReplicatorImpl`), the next pointer, which then runs `ReplicatorImpl::Run`. -/
def run (cfg : Cfg) (maxReadSize quota ioBufferSize : Int) (renv : RunEnv) (op : ReplicateChunkOp)
    (env : Env) (w : World) : World :=
  match (replicatorRun maxReadSize quota ioBufferSize renv op).outcome with
  | .reject _ => w
  | .dead msg => w.die msg
  | .start b => (w.push b).implRun cfg env w.slots.length

/-- `ReplicatorImpl::CancelChunkReplication(chunkId, targetVersion)`: unregister and cancel the
replicator of `chunkId`; with `0 <= targetVersion`, only one that still owns its op and aims at
that version. The result is whether it cancelled. A pointer past the replicators created is left alone. -/
def cancelChunkReplication (chunkId targetVersion : Int) (env : Env) (w : World) : Bool × World :=
  match Registry.find chunkId w.inFlight with
  | some (some r) =>
    match w.slots[r]? with
    | some sl =>
      if 0 ≤ targetVersion ∧ (sl.rep.owner = false ∨ sl.rep.aimedVersion ≠ targetVersion) then
        (false, w)
      else (true, { w with inFlight := Registry.erase chunkId w.inFlight }.cancel env r)
    | none => (false, w)
  | _ => (false, w)

/-- The loop of `ReplicatorImpl::CancelAll` over the swapped-out entries: a null pointer is
skipped, otherwise the entry is cleared and its replicator cancelled. `env r` is what the
`Cancel()` of replicator `r` finds. -/
def cancelLoop (env : Nat → Env) : List (Int × Option Nat) → World → World
  | [], w => w
  | (_, none) :: m, w => cancelLoop env m w
  | (_, some r) :: m, w => cancelLoop env m (w.cancel (env r) r)

/-- `ReplicatorImpl::CancelAll`: swap the registry out for an empty one, then run the loop over
the entries it held. -/
def cancelAll (env : Nat → Env) (w : World) : World :=
  cancelLoop env w.inFlight { w with inFlight := [] }

/-- `~ReplicatorImpl`: erase the entry of `mChunkId` only if it points to this replicator. -/
def destroy (i : Nat) (w : World) : World :=
  match w.slots[i]? with
  | none => w
  | some sl =>
    let w := { w with slots := w.slots.modify (fun sl => { sl with destroyed := true }) i }
    match Registry.find sl.chunkId w.inFlight with
    | some (some r) => if r = i then { w with inFlight := Registry.erase sl.chunkId w.inFlight } else w
    | _ => w

/-- No `die` has stopped the process. -/
def alive (w : World) : Bool := w.dead.isNone && w.slots.all (·.rep.dead.isNone)

/-- Some replicator has a `Handle()` due inline. -/
def inline (w : World) : Bool := w.slots.any (·.rep.runNow)

/-- Replicator `i` exists, is not destroyed yet, and has lost its last reference: the op is
answered and no close completion is owed to it. -/
def releasable (i : Nat) (w : World) : Bool :=
  match w.slots[i]? with
  | some sl => !sl.destroyed && !sl.rep.owner && !sl.rep.pendingClose
  | none => false

/-- The replicators the registry points to, one per entry. -/
def held (w : World) : List Nat := w.inFlight.filterMap Prod.snd

/-! ### The replicators after each operation -/

section Slots

variable {w : World} {i r : Nat}

theorem modify_append_of_lt {α : Type} (g : α → α) (x : α) :
    ∀ (l : List α) (r : Nat), r < l.length → (l ++ [x]).modify g r = l.modify g r ++ [x]
  | _ :: _, 0, _ => by simp
  | _ :: l, r + 1, h => by
    simp [modify_append_of_lt g x l r (by simpa using h)]

@[simp] theorem slots_update (f : Rep → Rep) :
    (w.update i f).slots[r]? =
      (w.slots[r]?).map fun sl => if i = r then { sl with rep := f sl.rep } else sl := by
  simp [update, List.getElem?_modify]

@[simp] theorem slots_cancel (env : Env) :
    (w.cancel env i).slots[r]? = (w.slots[r]?).map fun sl =>
      if i = r then { sl with rep := sl.rep.cancel env, cancelled := true } else sl := by
  simp [cancel, List.getElem?_modify]

@[simp] theorem length_update (f : Rep → Rep) : (w.update i f).slots.length = w.slots.length := by
  simp [update]

@[simp] theorem length_cancel (env : Env) : (w.cancel env i).slots.length = w.slots.length := by
  simp [cancel]

@[simp] theorem slots_push_length (b : Rep) :
    (w.push b).slots[w.slots.length]? = some ⟨b.op.chunkId, b, false, false⟩ := by
  simp [push]

theorem slots_push_at {n : Nat} (b : Rep) (h : n = w.slots.length) :
    (w.push b).slots[n]? = some ⟨b.op.chunkId, b, false, false⟩ :=
  h ▸ slots_push_length b

theorem slots_push_of_lt (b : Rep) (h : r < w.slots.length) :
    (w.push b).slots[r]? = w.slots[r]? := by
  simp [push, List.getElem?_append_left h]

theorem slots_push {b : Rep} {sl : Slot} (h : (w.push b).slots[r]? = some sl) :
    w.slots[r]? = some sl ∨ (r = w.slots.length ∧ sl = ⟨b.op.chunkId, b, false, false⟩) := by
  by_cases hr : r < w.slots.length
  · exact .inl ((slots_push_of_lt b hr).symm.trans h)
  · have hlt := (List.getElem?_eq_some_iff.mp h).1
    simp only [push, List.length_append, List.length_singleton] at hlt
    have hr : r = w.slots.length := by omega
    subst hr
    rw [slots_push_length] at h
    exact .inr ⟨rfl, (Option.some.inj h).symm⟩

theorem slots_destroy : (w.destroy i).slots = w.slots.modify (fun sl => { sl with destroyed := true }) i := by
  unfold destroy
  split
  · rename_i hn
    exact (List.modify_eq_self (List.getElem?_eq_none_iff.mp hn)).symm
  · dsimp only
    split
    · split <;> rfl
    · rfl

/-- Cancelling an older replicator commutes with creating a new one. -/
theorem cancel_push (env : Env) (b : Rep) (h : r < w.slots.length) :
    (w.push b).cancel env r = (w.cancel env r).push b := by
  simp only [cancel, push, modify_append_of_lt _ _ _ _ h]

@[simp] theorem inFlight_cancelLoop (env : Nat → Env) :
    ∀ (m : List (Int × Option Nat)) (w : World), (cancelLoop env m w).inFlight = w.inFlight
  | [], _ => rfl
  | (_, none) :: m, w => inFlight_cancelLoop env m w
  | (_, some q) :: m, w => inFlight_cancelLoop env m (w.cancel (env q) q)

@[simp] theorem dead_cancelLoop (env : Nat → Env) :
    ∀ (m : List (Int × Option Nat)) (w : World), (cancelLoop env m w).dead = w.dead
  | [], _ => rfl
  | (_, none) :: m, w => dead_cancelLoop env m w
  | (_, some q) :: m, w => dead_cancelLoop env m (w.cancel (env q) q)

/-- The loop leaves alone a replicator no entry points to. -/
theorem slots_cancelLoop_of_not_mem (env : Nat → Env) :
    ∀ (m : List (Int × Option Nat)) (w : World), r ∉ m.filterMap Prod.snd →
      (cancelLoop env m w).slots[r]? = w.slots[r]?
  | [], _, _ => rfl
  | (_, none) :: m, w, h => slots_cancelLoop_of_not_mem env m w (by simpa using h)
  | (_, some q) :: m, w, h => by
    simp only [List.filterMap_cons, List.mem_cons, not_or] at h
    rw [cancelLoop, slots_cancelLoop_of_not_mem env m _ h.2, slots_cancel]
    simp [Ne.symm h.1]

/-- The loop cancels once a replicator that exactly one entry points to. -/
theorem slots_cancelLoop_of_mem (env : Nat → Env) :
    ∀ (m : List (Int × Option Nat)) (w : World), (m.filterMap Prod.snd).Nodup →
      r ∈ m.filterMap Prod.snd → (cancelLoop env m w).slots[r]? =
        (w.slots[r]?).map fun sl => { sl with rep := sl.rep.cancel (env r), cancelled := true }
  | [], _, _, h => by cases h
  | (_, none) :: m, w, hn, h => slots_cancelLoop_of_mem env m w (by simpa using hn) (by simpa using h)
  | (_, some q) :: m, w, hn, h => by
    simp only [List.filterMap_cons, List.nodup_cons, List.mem_cons] at hn h
    rw [cancelLoop]
    rcases h with rfl | h
    · rw [slots_cancelLoop_of_not_mem env m _ hn.1, slots_cancel]
      simp
    · rw [slots_cancelLoop_of_mem env m _ hn.2 h, slots_cancel]
      have hqr : q ≠ r := fun hqr => hn.1 (hqr ▸ h)
      simp [hqr]

@[simp] theorem length_cancelLoop (env : Nat → Env) :
    ∀ (m : List (Int × Option Nat)) (w : World), (cancelLoop env m w).slots.length = w.slots.length
  | [], _ => rfl
  | (_, none) :: m, w => length_cancelLoop env m w
  | (_, some q) :: m, _ => (length_cancelLoop env m _).trans (length_cancel (env q))

end Slots

end World

/-- What can happen to the replicators and their registry. -/
inductive WEvent
  /-- `Replicator::Run(op)`. -/
  | run (renv : RunEnv) (op : ReplicateChunkOp) (env : Env)
  /-- `Replicator::Cancel(chunkId, targetVersion)`. -/
  | cancelChunk (chunkId targetVersion : Int) (env : Env)
  /-- `Replicator::CancelAll()`; `env r` is what the `Cancel()` of replicator `r` finds. -/
  | cancelAll (env : Nat → Env)
  /-- Event `e` of replicator `i`. -/
  | rep (i : Nat) (env : Env) (e : Event)
  /-- The destructor of replicator `i`. -/
  | destroy (i : Nat)

/-- Whether an event of one replicator can happen in the world: `Cancel()` comes only from the
registry, and while a `Handle()` is due inline nothing but that runs. -/
def Event.inWorld (inline : Bool) : Event → Bool
  | .cancel => false
  | .handleInline => true
  | _ => !inline

/-- Whether `e` can happen in `w`. -/
def WEvent.enabled : WEvent → World → Bool
  | .rep i _ e, w =>
    match w.slots[i]? with
    | some sl => !sl.destroyed && e.enabled sl.rep && e.inWorld w.inline
    | none => false
  | .destroy i, w => !w.inline && w.releasable i
  | _, w => !w.inline

/-- What `e` does. -/
def WEvent.apply (cfg : Cfg) (maxReadSize quota ioBufferSize : Int) : WEvent → World → World
  | .run renv op env, w => w.run cfg maxReadSize quota ioBufferSize renv op env
  | .cancelChunk c tv env, w => (w.cancelChunkReplication c tv env).2
  | .cancelAll env, w => w.cancelAll env
  | .rep i env e, w => w.update i (e.apply cfg env)
  | .destroy i, w => w.destroy i

/-- One step of the world; `none` when `e` cannot happen, or a `die` has stopped the process. -/
def World.step (cfg : Cfg) (maxReadSize quota ioBufferSize : Int) (e : WEvent) (w : World) :
    Option World :=
  if w.alive && e.enabled w then some (e.apply cfg maxReadSize quota ioBufferSize w) else none

section Runs

variable (cfg : Cfg) (maxReadSize quota ioBufferSize : Int)

/-- The worlds reachable from the start. -/
inductive WReachable : World → Prop
  | init : WReachable World.init
  | step {w w' : World} {e : WEvent} :
      WReachable w → w.step cfg maxReadSize quota ioBufferSize e = some w' → WReachable w'

/-- `w'` follows from `w` by world steps. -/
inductive WSteps : World → World → Prop
  | refl (w : World) : WSteps w w
  | tail {w w' w'' : World} {e : WEvent} :
      WSteps w w' → w'.step cfg maxReadSize quota ioBufferSize e = some w'' → WSteps w w''

end Runs

theorem World.step_eq_some {cfg : Cfg} {maxReadSize quota ioBufferSize : Int} {e : WEvent}
    {w w' : World} (h : w.step cfg maxReadSize quota ioBufferSize e = some w') :
    w.alive = true ∧ e.enabled w = true ∧ w' = e.apply cfg maxReadSize quota ioBufferSize w := by
  unfold World.step at h
  split at h
  · rename_i hc
    rw [Bool.and_eq_true] at hc
    exact ⟨hc.1, hc.2, (Option.some.inj h).symm⟩
  · cases h

end QfsReplicator
