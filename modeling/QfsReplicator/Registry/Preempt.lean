import QfsReplicator.Registry.Sound
import QfsReplicator.Lifecycle.Freeze

/-! # Pre-emption and what a cancelled replicator still does

A world step moves each replicator by at most one event of its own model, a `Cancel()` from the
registry included, and never a destroyed one (`slot_step`); a new replicator is one
`Replicator::Run` admitted, asking for its buffers (`slot_new`). So every replicator of a
reachable world runs as its own model allows, and one the registry has cancelled is `Stopped`
(`runsOk_reachable`). By `stopped_step`, a cancelled replicator then starts no
`ChangeChunkVers` over any later run of the world (`cancelled_stays`).
-/

namespace QfsReplicator

/-- Replicator `a` after one world step is `b`: the same object, still cancelled and destroyed
if it was; its replicator is the same, or moved on by one of its own events, and only a
`Cancel()` makes it cancelled. -/
def Slot.Moves (cfg : Cfg) (a b : Slot) : Prop :=
  b.chunkId = a.chunkId ∧ (a.cancelled = true → b.cancelled = true) ∧
    (a.destroyed = true → b.destroyed = true) ∧
    ((b.rep = a.rep ∧ (b.cancelled = true → a.cancelled = true)) ∨
      (a.destroyed = false ∧ ∃ env e, step cfg env e a.rep = some b.rep ∧
        (b.cancelled = true → a.cancelled = true ∨ e = .cancel)))

/-- Replicator `a` runs as its own model allows from the state `Replicator::Run` created it in,
and is stopped if the registry has cancelled it. -/
def Slot.RunsOk (cfg : Cfg) (maxReadSize quota ioBufferSize : Int) (a : Slot) : Prop :=
  Reachable cfg (Admitted maxReadSize quota ioBufferSize) (fun _ _ => True) a.rep ∧
    (a.cancelled = true → Stopped a.rep)

section

variable {w w' : World} {cfg : Cfg} {env : Env} {b : Rep} {r : Nat} {a : Slot}
  {maxReadSize quota ioBufferSize : Int}

theorem Slot.Moves.refl (a : Slot) : a.Moves cfg a := ⟨rfl, id, id, .inl ⟨rfl, id⟩⟩

/-- A `Cancel()` from the registry, on a live replicator with no `Handle()` due inline. -/
theorem Slot.moves_cancel (ha : a.rep.dead = none) (hr : a.rep.runNow = false)
    (hd : a.destroyed = false) :
    a.Moves cfg { a with rep := a.rep.cancel env, cancelled := true } := by
  refine ⟨rfl, fun _ => rfl, id, .inr ⟨hd, env, .cancel, ?_, fun _ => .inr rfl⟩⟩
  simp [step, ha, hr, Event.enabled, Event.apply]

theorem World.rep_live (hal : w.alive = true) (ha : w.slots[r]? = some a) : a.rep.dead = none := by
  simp only [World.alive, Bool.and_eq_true, List.all_eq_true, Option.isNone_iff_eq_none] at hal
  exact hal.2 a (List.getElem?_mem ha)

theorem World.rep_idle (hin : w.inline = false) (ha : w.slots[r]? = some a) : a.rep.runNow = false := by
  simp only [World.inline, List.any_eq_false] at hin
  simpa using hin a (List.getElem?_mem ha)

theorem World.Names.not_destroyed {c : Int} {q : Nat} (h : w.Names c (some q))
    (hq : w.slots[q]? = some a) : a.destroyed = false := by
  obtain ⟨_, sl, hr, hsl, hd, -⟩ := h
  cases hr
  cases hq.symm.trans hsl
  exact hd

/-- The registry's `Cancel()` of a replicator that is not destroyed moves every replicator
within `Moves`. -/
theorem World.moves_cancel {q : Nat} (hal : w.alive = true) (hin : w.inline = false)
    (hq : ∀ sl, w.slots[q]? = some sl → sl.destroyed = false) (ha : w.slots[r]? = some a) :
    ∃ b, (w.cancel env q).slots[r]? = some b ∧ a.Moves cfg b := by
  rw [World.slots_cancel, ha]
  by_cases hqr : q = r
  · subst hqr
    exact ⟨{ a with rep := a.rep.cancel env, cancelled := true }, by simp,
      Slot.moves_cancel (w.rep_live hal ha) (w.rep_idle hin ha) (hq a ha)⟩
  · exact ⟨a, by simp [hqr], .refl a⟩

theorem World.length_implRun (n : Nat) : (w.implRun cfg env n).slots.length = w.slots.length := by
  unfold World.implRun
  split
  · rfl
  · split
    · simp
    · rfl
    · dsimp only
      split
      · rfl
      · split <;> simp

/-- The new replicator after `ReplicatorImpl::Run`, one not cancelled before it ran. -/
theorem Sound.implRun_new (h : Sound w) (cfg : Cfg) (env : Env) (hc : b.cancelFlag = false) :
    ((w.push b).implRun cfg env w.slots.length).slots[w.slots.length]? =
      some ⟨b.op.chunkId, b.run cfg env, false, false⟩ := by
  rcases h.implRun_eq cfg env b with ⟨-, he⟩ | ⟨r, -, -, he⟩
  · simp [he]
  · simp [he, hc, World.slots_push_at b (World.length_cancel env).symm]

/-- An older replicator after `ReplicatorImpl::Run`: as it was, or cancelled, when it was the
one registered for the chunk. -/
theorem Sound.implRun_old (h : Sound w) (cfg : Cfg) (env : Env) (b : Rep) (ha : w.slots[r]? = some a) :
    ((w.push b).implRun cfg env w.slots.length).slots[r]? = some a ∨
      (Registry.find b.op.chunkId w.inFlight = some (some r) ∧
        ((w.push b).implRun cfg env w.slots.length).slots[r]? =
          some { a with rep := a.rep.cancel env, cancelled := true }) := by
  have hr : r < w.slots.length := (List.getElem?_eq_some_iff.mp ha).1
  rcases h.implRun_eq cfg env b with ⟨-, he⟩ | ⟨q, hf, -, he⟩
  · exact .inl (by simp [he, Nat.ne_of_gt hr, World.slots_push_of_lt b hr, ha])
  · have hr' : r < (w.cancel env q).slots.length := by simpa using hr
    rw [he]
    by_cases hqr : q = r
    · subst hqr
      refine .inr ⟨hf, ?_⟩
      split <;> simp [Nat.ne_of_gt hr, World.slots_push_of_lt b hr', ha]
    · refine .inl ?_
      split <;> simp [Nat.ne_of_gt hr, World.slots_push_of_lt b hr', ha, hqr]

end

/-! ## One world step, seen from one replicator -/

section Step

variable {cfg : Cfg} {maxReadSize quota ioBufferSize : Int} {e : WEvent} {w w' : World}
  {r : Nat} {a b : Slot}

/-- At a step of a sound world every replicator moves within `Moves`. -/
theorem slot_step (h : Sound w) (hs : w.step cfg maxReadSize quota ioBufferSize e = some w')
    (ha : w.slots[r]? = some a) : ∃ b, w'.slots[r]? = some b ∧ a.Moves cfg b := by
  obtain ⟨hal, he, rfl⟩ := World.step_eq_some hs
  have stay : ∃ b, w.slots[r]? = some b ∧ a.Moves cfg b := ⟨a, ha, .refl a⟩
  have hin (hi : (!w.inline) = true) : w.inline = false := by simpa using hi
  have live {c : Int} {q : Nat} (hn : w.Names c (some q)) :
      ∀ sl, w.slots[q]? = some sl → sl.destroyed = false := fun _ hq => hn.not_destroyed hq
  cases e with
  | run renv op env =>
    dsimp only [WEvent.apply]
    unfold World.run
    split
    · exact stay
    · exact stay
    · rename_i b0 _
      rcases h.implRun_old cfg env b0 ha with hb | ⟨hf, hb⟩
      · exact ⟨a, hb, .refl a⟩
      · exact ⟨_, hb, Slot.moves_cancel (w.rep_live hal ha) (w.rep_idle (hin he) ha)
          (live (h.live _ (Registry.mem_of_find hf)) a ha)⟩
  | cancelChunk c tv env =>
    dsimp only [WEvent.apply]
    unfold World.cancelChunkReplication
    split
    · rename_i q hf
      split
      · split
        · exact stay
        · exact World.moves_cancel (w := { w with inFlight := Registry.erase c w.inFlight }) hal
            (hin he) (live (h.live _ (Registry.mem_of_find hf))) ha
      · exact stay
    · exact stay
  | cancelAll env =>
    dsimp only [WEvent.apply]
    unfold World.cancelAll
    by_cases hm : r ∈ w.held
    · rw [World.slots_cancelLoop_of_mem env _ _ h.held_nodup hm]
      obtain ⟨x, hx, hxr⟩ := List.mem_filterMap.mp hm
      have hn := h.live x hx
      rw [hxr] at hn
      exact ⟨{ a with rep := a.rep.cancel (env r), cancelled := true }, by simp [ha],
        Slot.moves_cancel (w.rep_live hal ha) (w.rep_idle (hin he) ha) (live hn a ha)⟩
    · rw [World.slots_cancelLoop_of_not_mem env _ _ hm]
      exact stay
  | rep i env e =>
    dsimp only [WEvent.apply]
    rw [World.slots_update, ha]
    by_cases hir : i = r
    · subst hir
      simp only [WEvent.enabled, ha, Bool.and_eq_true, Bool.not_eq_true'] at he
      refine ⟨{ a with rep := e.apply cfg env a.rep }, by simp, rfl, id, id,
        .inr ⟨he.1.1, env, e, ?_, .inl⟩⟩
      simp [step, w.rep_live hal ha, he.1.2]
    · exact ⟨a, by simp [hir], .refl a⟩
  | destroy i =>
    dsimp only [WEvent.apply]
    rw [World.slots_destroy, List.getElem?_modify, ha]
    by_cases hir : i = r
    · exact ⟨{ a with destroyed := true }, by simp [hir], rfl, id, fun _ => rfl, .inl ⟨rfl, id⟩⟩
    · exact ⟨a, by simp [hir], .refl a⟩

/-- A replicator a world step creates is one `Replicator::Run` admitted, just run, and not
cancelled. -/
theorem slot_new (h : Sound w) (hs : w.step cfg maxReadSize quota ioBufferSize e = some w')
    (hr : w.slots.length ≤ r) (hb : w'.slots[r]? = some b) :
    b.cancelled = false ∧
      Reachable cfg (Admitted maxReadSize quota ioBufferSize) (fun _ _ => True) b.rep := by
  obtain ⟨-, -, rfl⟩ := World.step_eq_some hs
  have hnone : w.slots[r]? = none := List.getElem?_eq_none hr
  cases e with
  | run renv op env =>
    dsimp only [WEvent.apply] at hb
    unfold World.run at hb
    split at hb
    · simp [hnone] at hb
    · simp [World.die, hnone] at hb
    · rename_i b0 hout
      have hlt := (List.getElem?_eq_some_iff.mp hb).1
      simp only [World.length_implRun, World.push, List.length_append,
        List.length_singleton] at hlt
      obtain rfl : r = w.slots.length := by omega
      obtain ⟨op', ct, lv, rsz, rfl⟩ := admitted_fresh ⟨renv, op, hout⟩
      rw [h.implRun_new cfg env rfl] at hb
      cases hb
      exact ⟨rfl, .run env ⟨renv, op, hout⟩⟩
  | cancelChunk c tv env =>
    dsimp only [WEvent.apply] at hb
    unfold World.cancelChunkReplication at hb
    repeat' split at hb
    all_goals simp [hnone] at hb
  | cancelAll env =>
    have hlt := (List.getElem?_eq_some_iff.mp hb).1
    simp only [WEvent.apply, World.cancelAll, World.length_cancelLoop] at hlt
    omega
  | rep i env e => simp [WEvent.apply, hnone] at hb
  | destroy i =>
    simp [WEvent.apply, World.slots_destroy, List.getElem?_modify, hnone] at hb

theorem Slot.RunsOk.moves (ha : a.RunsOk cfg maxReadSize quota ioBufferSize) (hm : a.Moves cfg b) :
    b.RunsOk cfg maxReadSize quota ioBufferSize := by
  obtain ⟨-, -, -, ⟨hr, hc⟩ | ⟨-, env, e, hs, hc⟩⟩ := hm
  · exact ⟨hr ▸ ha.1, fun h => hr ▸ ha.2 (hc h)⟩
  · refine ⟨.step ha.1 trivial hs, fun hb => ?_⟩
    rcases hc hb with hca | rfl
    · exact (stopped_step (disc_reachable ha.1) (finish_reachable_of_fresh admitted_fresh ha.1)
        (ha.2 hca) hs).1
    · rw [(step_eq_some hs).2.2]
      exact stopped_cancel.1

/-- Every replicator of a reachable world runs as its own model allows, and is stopped once the
registry has cancelled it. -/
theorem runsOk_reachable (hw : WReachable cfg maxReadSize quota ioBufferSize w)
    (ha : w.slots[r]? = some a) : a.RunsOk cfg maxReadSize quota ioBufferSize := by
  induction hw generalizing r a with
  | init => simp [World.init] at ha
  | step hw' hs ih =>
    rename_i w0 _ _
    by_cases hr : r < w0.slots.length
    · obtain ⟨a0, ha0⟩ : ∃ a0, w0.slots[r]? = some a0 := ⟨_, List.getElem?_eq_getElem hr⟩
      obtain ⟨b, hb, hm⟩ := slot_step (sound_reachable hw') hs ha0
      cases ha.symm.trans hb
      exact (ih ha0).moves hm
    · obtain ⟨hc, hre⟩ := slot_new (sound_reachable hw') hs (Nat.le_of_not_lt hr) ha
      exact ⟨hre, fun h => absurd h (by simp [hc])⟩

theorem WSteps.reachable (hw : WReachable cfg maxReadSize quota ioBufferSize w)
    (hs : WSteps cfg maxReadSize quota ioBufferSize w w') :
    WReachable cfg maxReadSize quota ioBufferSize w' := by
  induction hs with
  | refl => exact hw
  | tail _ hst ih => exact .step ih hst

/-- A replicator the registry has cancelled stays cancelled over every later run of the world,
and starts no `ChangeChunkVers` in it. -/
theorem cancelled_stays (hw : WReachable cfg maxReadSize quota ioBufferSize w)
    (hs : WSteps cfg maxReadSize quota ioBufferSize w w') (ha : w.slots[r]? = some a)
    (hc : a.cancelled = true) :
    ∃ b, w'.slots[r]? = some b ∧ b.cancelled = true ∧ b.rep.versStarts = a.rep.versStarts := by
  induction hs with
  | refl => exact ⟨a, ha, hc, rfl⟩
  | tail hs' hst ih =>
    obtain ⟨b, hb, hbc, hbv⟩ := ih
    have hw' := hs'.reachable hw
    obtain ⟨b', hb', hm⟩ := slot_step (sound_reachable hw') hst hb
    refine ⟨b', hb', hm.2.1 hbc, ?_⟩
    rcases hm.2.2.2 with ⟨hr, -⟩ | ⟨-, env, e, hse, -⟩
    · rw [hr, hbv]
    · have hok := runsOk_reachable hw' hb
      rw [(stopped_step (disc_reachable hok.1) (finish_reachable_of_fresh admitted_fresh hok.1)
        (hok.2 hbc) hse).2, hbv]

end Step

/-! ## What the registry guarantees -/

/-- The registry's guarantees in world `w`. -/
structure RegistryHolds (cfg : Cfg) (maxReadSize quota ioBufferSize : Int) (w : World) : Prop where
  /-- Every entry of `sInFlightReplications` names a replicator of its chunk that exists and is
  not destroyed. -/
  live : ∀ e ∈ w.inFlight, w.Names e.1 e.2
  /-- `~ReplicatorImpl` erases exactly the entries that point to its own replicator. -/
  destroy_erases_own : ∀ i w', w.step cfg maxReadSize quota ioBufferSize (.destroy i) = some w' →
    w'.inFlight = w.inFlight.filter fun e => e.2 != some i
  /-- `CancelAll` empties the registry and, in the same call, cancels every replicator the
  registry held and no other; no call comes in between, so it cancels no replicator that `Run`
  registers after it. -/
  cancelAll_cancels : ∀ env w', w.step cfg maxReadSize quota ioBufferSize (.cancelAll env) = some w' →
    w'.inFlight = [] ∧ w'.slots.length = w.slots.length ∧ ∀ (r : Nat) (a : Slot), w.slots[r]? = some a →
      w'.slots[r]? = some (if r ∈ w.held then { a with rep := a.rep.cancel (env r), cancelled := true } else a)
  /-- `ReplicatorImpl::Run` of a new replicator never reaches its `die`. -/
  implRun_alive : ∀ b env, ((w.push b).implRun cfg env w.slots.length).dead = w.dead
  /-- After `Run` creates replicator `B` for chunk `c`, the registry maps `c` to `B`; the
  replicator registered for `c` before has had `Cancel()`; and so has every older replicator of
  `c` that is not destroyed. -/
  run_preempts : ∀ renv op env b w',
    (replicatorRun maxReadSize quota ioBufferSize renv op).outcome = .start b →
    w.step cfg maxReadSize quota ioBufferSize (.run renv op env) = some w' →
    Registry.find b.op.chunkId w'.inFlight = some (some w.slots.length) ∧
      (∀ r, Registry.find b.op.chunkId w.inFlight = some (some r) →
        ∃ a, w'.slots[r]? = some a ∧ a.cancelled = true) ∧
      ∀ (r : Nat) (a : Slot), w'.slots[r]? = some a → r < w.slots.length →
        a.chunkId = b.op.chunkId → a.destroyed = false → a.cancelled = true
  /-- A replicator the registry has cancelled stays cancelled, and starts no `ChangeChunkVers`,
  over every later run of the world. -/
  cancelled_frozen : ∀ (r : Nat) (a : Slot), w.slots[r]? = some a → a.cancelled = true →
    ∀ w', WSteps cfg maxReadSize quota ioBufferSize w w' →
      ∃ b, w'.slots[r]? = some b ∧ b.cancelled = true ∧ b.rep.versStarts = a.rep.versStarts

section Holds

variable {cfg : Cfg} {maxReadSize quota ioBufferSize : Int} {w : World}

/-- `Replicator::Run` of an admitted op is `ReplicatorImpl::Run` of its new replicator. -/
theorem World.run_start {renv : RunEnv} {op : ReplicateChunkOp} {env : Env} {b : Rep}
    (hout : (replicatorRun maxReadSize quota ioBufferSize renv op).outcome = .start b) :
    w.run cfg maxReadSize quota ioBufferSize renv op env =
      (w.push b).implRun cfg env w.slots.length := by
  simp only [World.run, hout]

theorem registry_holds (hw : WReachable cfg maxReadSize quota ioBufferSize w) :
    RegistryHolds cfg maxReadSize quota ioBufferSize w where
  live := (sound_reachable hw).live
  destroy_erases_own i w' hs := by
    obtain ⟨-, he, rfl⟩ := World.step_eq_some hs
    simp only [WEvent.enabled, Bool.and_eq_true] at he
    exact (sound_reachable hw).destroy_inFlight he.2
  cancelAll_cancels env w' hs := by
    obtain ⟨-, -, rfl⟩ := World.step_eq_some hs
    refine ⟨by simp [WEvent.apply, World.cancelAll], by simp [WEvent.apply, World.cancelAll],
      fun r a ha => ?_⟩
    dsimp only [WEvent.apply, World.cancelAll]
    split
    · rw [World.slots_cancelLoop_of_mem env _ _ (sound_reachable hw).held_nodup (by assumption)]
      simp [ha]
    · rw [World.slots_cancelLoop_of_not_mem env _ _ (by assumption)]
      exact ha
  implRun_alive b env := ((sound_reachable hw).implRun_spec cfg env b).2.1
  run_preempts renv op env b w' hout hs := by
    have h' := sound_reachable (.step hw hs)
    obtain ⟨-, -, rfl⟩ := World.step_eq_some hs
    obtain ⟨hf, -, hc⟩ := (sound_reachable hw).implRun_spec cfg env b
    dsimp only [WEvent.apply] at h' ⊢
    rw [World.run_start hout] at h' ⊢
    have hfind : Registry.find b.op.chunkId
        ((w.push b).implRun cfg env w.slots.length).inFlight = some (some w.slots.length) := by
      rw [hf]
      exact Registry.find_assign_self
    refine ⟨hfind, hc, fun r a ha hr hac had => ?_⟩
    rcases h'.accounted r a ha with hfr | hca | hd
    · rw [hac, hfind] at hfr
      cases hfr
      exact absurd hr (lt_irrefl _)
    · exact hca
    · simp [had] at hd
  cancelled_frozen _ _ ha hc _ hs := cancelled_stays hw hs ha hc

/-- The world after one `Run` that leaves its replicator waiting for buffers. -/
theorem registry_holds_one_waiting :
    WReachable ⟨false, CHUNKSIZE, false, fun _ => []⟩ kDefaultReplicationReadSize 67108864 4096
        (World.init.run ⟨false, CHUNKSIZE, false, fun _ => []⟩ kDefaultReplicationReadSize
          67108864 4096 ⟨true, 0, true, false, true⟩ ⟨1, 1, 1, 1, true, 20000, 0, 0, 0, 0, 0, 0, []⟩
          { Env.ok with getForDiskIo := false }) ∧
      RegistryHolds ⟨false, CHUNKSIZE, false, fun _ => []⟩ kDefaultReplicationReadSize 67108864 4096
        (World.init.run ⟨false, CHUNKSIZE, false, fun _ => []⟩ kDefaultReplicationReadSize
          67108864 4096 ⟨true, 0, true, false, true⟩ ⟨1, 1, 1, 1, true, 20000, 0, 0, 0, 0, 0, 0, []⟩
          { Env.ok with getForDiskIo := false }) :=
  have h1 := @WReachable.step ⟨false, CHUNKSIZE, false, fun _ => []⟩ kDefaultReplicationReadSize
    67108864 4096 _ _ (.run ⟨true, 0, true, false, true⟩ ⟨1, 1, 1, 1, true, 20000, 0, 0, 0, 0, 0, 0, []⟩
      { Env.ok with getForDiskIo := false }) .init rfl
  ⟨h1, registry_holds h1⟩

end Holds

end QfsReplicator
