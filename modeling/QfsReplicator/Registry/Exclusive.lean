import QfsReplicator.Registry.Preempt
import QfsReplicator.Lifecycle.CancelStop

/-! # One active replicator per chunk

The registry is what keeps two replicators of one chunk from both finishing: `Run` cancels the
replicator it pre-empts, `CancelChunkReplication` cancels the one it unregisters, and
`CancelAll` cancels what it swapped out. Over every interleaving:

* a chunk has at most one replicator that is neither cancelled nor destroyed, the one
  registered for it (`active_unique`);
* a replicator that is not registered never again starts a `ChangeChunkVers`
  (`unregistered_frozen`);
* every replicator created before a `CancelAll` has been cancelled or destroyed, then and ever
  after (`cancelAll_complete`);
* a replicator the registry has cancelled never allocates its chunk again and writes it at most
  once more (`registry_cancel_stops_copy`).
-/

namespace QfsReplicator

section

variable {cfg : Cfg} {maxReadSize quota ioBufferSize : Int} {e : WEvent} {w w' w'' : World}
  {r : Nat} {a : Slot}

/-- A property every step of a reachable world keeps holds over every later run. -/
theorem WSteps.preserve {P : World → Prop}
    (hstep : ∀ {u u' : World} {e : WEvent}, WReachable cfg maxReadSize quota ioBufferSize u →
      P u → u.step cfg maxReadSize quota ioBufferSize e = some u' → P u')
    (hw : WReachable cfg maxReadSize quota ioBufferSize w)
    (hs : WSteps cfg maxReadSize quota ioBufferSize w w') (h0 : P w) : P w' := by
  induction hs with
  | refl => exact h0
  | tail hs' hst ih => exact hstep (hs'.reachable hw) ih hst

/-- A world step leaves a destroyed replicator exactly as it was. -/
theorem destroyed_step (h : Sound w) (hs : w.step cfg maxReadSize quota ioBufferSize e = some w')
    (ha : w.slots[r]? = some a) (hd : a.destroyed = true) : w'.slots[r]? = some a := by
  obtain ⟨b, hb, hch, hc, hdd, hm⟩ := slot_step h hs ha
  rcases hm with ⟨hr, hcb⟩ | ⟨hnd, -⟩
  · have hcc : b.cancelled = a.cancelled := Bool.eq_iff_iff.mpr ⟨hcb, hc⟩
    obtain ⟨_, _, _, _⟩ := a
    obtain ⟨_, _, _, _⟩ := b
    simp_all
  · simp [hd] at hnd

/-- A world step adds to the registry at most the entry of the replicator it creates. -/
theorem inFlight_step (h : Sound w) (hs : w.step cfg maxReadSize quota ioBufferSize e = some w')
    {x : Int × Option Nat} (hx : x ∈ w'.inFlight) : x ∈ w.inFlight ∨ x.2 = some w.slots.length := by
  obtain ⟨-, he, rfl⟩ := World.step_eq_some hs
  have erased {c : Int} (hx : x ∈ Registry.erase c w.inFlight) : x ∈ w.inFlight :=
    (Registry.mem_erase.mp hx).1
  cases e with
  | run renv op env =>
    dsimp only [WEvent.apply] at hx
    unfold World.run at hx
    split at hx
    · exact .inl hx
    · exact .inl hx
    · rename_i b _
      rw [(h.implRun_spec cfg env b).1] at hx
      rcases List.mem_cons.mp hx with rfl | hx
      · exact .inr rfl
      · exact .inl (erased hx)
  | cancelChunk c tv env =>
    dsimp only [WEvent.apply] at hx
    unfold World.cancelChunkReplication at hx
    repeat' split at hx
    all_goals first | exact .inl hx | exact .inl (erased hx)
  | cancelAll env => simp [WEvent.apply, World.cancelAll] at hx
  | rep i env e => exact .inl hx
  | destroy i =>
    simp only [WEvent.enabled, Bool.and_eq_true] at he
    dsimp only [WEvent.apply] at hx
    rw [h.destroy_inFlight he.2] at hx
    exact .inl (List.mem_of_mem_filter hx)

/-- Replicator `r` exists and no registry entry points to it. -/
def World.Unregistered (w : World) (r : Nat) : Prop :=
  (∃ a, w.slots[r]? = some a) ∧ ∀ x ∈ w.inFlight, x.2 ≠ some r

/-- Once unregistered, a replicator is never registered again: `Run` registers only the
replicator it creates. -/
theorem unregistered_step (h : Sound w) (hs : w.step cfg maxReadSize quota ioBufferSize e = some w')
    (hu : w.Unregistered r) : w'.Unregistered r := by
  obtain ⟨⟨a, ha⟩, hn⟩ := hu
  have hr : r < w.slots.length := (List.getElem?_eq_some_iff.mp ha).1
  obtain ⟨b, hb, -⟩ := slot_step h hs ha
  refine ⟨⟨b, hb⟩, fun x hx hxr => ?_⟩
  rcases inFlight_step h hs hx with hx | hx
  · exact hn x hx hxr
  · rw [hxr] at hx
    exact absurd (Option.some.inj hx) (Nat.ne_of_lt hr)

/-- A replicator that is neither cancelled nor destroyed is the one registered for its chunk. -/
theorem Sound.active_registered (h : Sound w) (ha : w.slots[r]? = some a) (hac : a.cancelled = false)
    (had : a.destroyed = false) : Registry.find a.chunkId w.inFlight = some (some r) := by
  rcases h.accounted r a ha with hf | hca | hd
  · exact hf
  · simp [hac] at hca
  · simp [had] at hd

/-- A chunk `c` has at most one replicator that is neither cancelled nor destroyed, and it is
the one registered for `c`. -/
theorem active_unique {c : Int} {q : Nat} {b : Slot}
    (hw : WReachable cfg maxReadSize quota ioBufferSize w) (ha : w.slots[r]? = some a) (hb : w.slots[q]? = some b) (hac : a.chunkId = c)
    (hbc : b.chunkId = c) (hxa : a.cancelled = false ∧ a.destroyed = false)
    (hxb : b.cancelled = false ∧ b.destroyed = false) :
    r = q ∧ Registry.find c w.inFlight = some (some r) := by
  have h := sound_reachable hw
  have hfa := h.active_registered ha hxa.1 hxa.2
  have hfb := h.active_registered hb hxb.1 hxb.2
  rw [hac] at hfa
  rw [hbc, hfa] at hfb
  exact ⟨Option.some.inj (Option.some.inj hfb), hfa⟩

/-- A replicator that is not registered never again starts a `ChangeChunkVers`: its count of
started version changes stays as it is over every later run of the world. -/
theorem unregistered_frozen (hw : WReachable cfg maxReadSize quota ioBufferSize w)
    (ha : w.slots[r]? = some a) (hf : ∀ x ∈ w.inFlight, x.2 ≠ some r)
    (hs : WSteps cfg maxReadSize quota ioBufferSize w w') :
    ∃ b, w'.slots[r]? = some b ∧ b.rep.versStarts = a.rep.versStarts := by
  rcases (sound_reachable hw).accounted r a ha with hfr | hc | hd
  · exact absurd rfl (hf _ (Registry.mem_of_find hfr))
  · obtain ⟨b, hb, -, hv⟩ := cancelled_stays hw hs ha hc
    exact ⟨b, hb, hv⟩
  · exact ⟨a, WSteps.preserve (P := fun u => u.slots[r]? = some a)
      (fun hu hp hst => destroyed_step (sound_reachable hu) hst hp hd) hw hs ha, rfl⟩

/-- Whatever else the chunk server does, a replicator the registry has cancelled (pre-empted by
`Run`, unregistered by `CancelChunkReplication`, or swept by `CancelAll`) never calls `AllocChunk`
again, and calls `WriteChunk` at most once more. -/
theorem registry_cancel_stops_copy (hw : WReachable cfg maxReadSize quota ioBufferSize w)
    (hs : WSteps cfg maxReadSize quota ioBufferSize w w') (ha : w.slots[r]? = some a)
    (hc : a.cancelled = true) :
    ∃ b, w'.slots[r]? = some b ∧ b.rep.allocs = a.rep.allocs ∧ a.rep.writes <+: b.rep.writes ∧
      b.rep.writes.length ≤ a.rep.writes.length + 1 := by
  have key : ∃ b, w'.slots[r]? = some b ∧ Winds b.rep a.rep :=
    WSteps.preserve (P := fun u => ∃ b, u.slots[r]? = some b ∧ Winds b.rep a.rep)
      (fun hu ⟨b, hb, hwb⟩ hst => by
        obtain ⟨b', hb', hm⟩ := slot_step (sound_reachable hu) hst hb
        refine ⟨b', hb', ?_⟩
        rcases hm.2.2.2 with ⟨hr, -⟩ | ⟨-, env, e, hse, -⟩
        · rw [hr]
          exact hwb
        · have hrb := (runsOk_reachable hu hb).1
          exact hwb.trans (winds_step (disc_reachable hrb) (shortCarry_reachable hrb) hwb.1 hse))
      hw hs ⟨a, ha, winds_self ((runsOk_reachable hw ha).2 hc)⟩
  obtain ⟨b, hb, -, -, hal, hp, hl⟩ := key
  have hd : tailDue a.rep ≤ 1 := tailDue_le
  exact ⟨b, hb, hal, hp, by omega⟩

/-- `CancelAll` leaves nothing behind: every replicator created before it has had `Cancel()` or
is destroyed, and stays so whatever other calls and events come after. -/
theorem cancelAll_complete {w₁ : World} {env : Nat → Env}
    (hw : WReachable cfg maxReadSize quota ioBufferSize w)
    (h₁ : w.step cfg maxReadSize quota ioBufferSize (.cancelAll env) = some w₁)
    (hs : WSteps cfg maxReadSize quota ioBufferSize w₁ w') (ha : w.slots[r]? = some a) :
    ∃ b, w'.slots[r]? = some b ∧ (b.cancelled = true ∨ b.destroyed = true) := by
  have hw₁ : WReachable cfg maxReadSize quota ioBufferSize w₁ := .step hw h₁
  obtain ⟨b₁, hb₁, -⟩ := slot_step (sound_reachable hw) h₁ ha
  have hempty : w₁.inFlight = [] := by
    obtain ⟨-, -, rfl⟩ := World.step_eq_some h₁
    simp [WEvent.apply, World.cancelAll]
  have hu : w'.Unregistered r :=
    WSteps.preserve (P := (·.Unregistered r))
      (fun hu hp hst => unregistered_step (sound_reachable hu) hst hp) hw₁ hs
      ⟨⟨b₁, hb₁⟩, fun x hx => by simp [hempty] at hx⟩
  obtain ⟨⟨b, hb⟩, hn⟩ := hu
  refine ⟨b, hb, ?_⟩
  rcases (sound_reachable (hs.reachable hw₁)).accounted r b hb with hfr | hrest
  · exact absurd rfl (hn _ (Registry.mem_of_find hfr))
  · exact hrest

/-- The world after one `Run` of chunk 1 that leaves its replicator waiting for buffers. -/
theorem waiting_run_reachable :
    WReachable ⟨false, CHUNKSIZE, false, fun _ => []⟩ kDefaultReplicationReadSize 67108864 4096
      (World.init.run ⟨false, CHUNKSIZE, false, fun _ => []⟩ kDefaultReplicationReadSize 67108864
        4096 ⟨true, 0, true, false, true⟩ ⟨1, 1, 1, 1, true, 20000, 0, 0, 0, 0, 0, 0, []⟩
        { Env.ok with getForDiskIo := false }) :=
  .step (e := .run ⟨true, 0, true, false, true⟩ ⟨1, 1, 1, 1, true, 20000, 0, 0, 0, 0, 0, 0, []⟩
    { Env.ok with getForDiskIo := false }) .init rfl

/-- The world after a second such `Run`, which pre-empts the first. -/
theorem preempting_run_reachable :
    WReachable ⟨false, CHUNKSIZE, false, fun _ => []⟩ kDefaultReplicationReadSize 67108864 4096
      ((World.init.run ⟨false, CHUNKSIZE, false, fun _ => []⟩ kDefaultReplicationReadSize 67108864
        4096 ⟨true, 0, true, false, true⟩ ⟨1, 1, 1, 1, true, 20000, 0, 0, 0, 0, 0, 0, []⟩
        { Env.ok with getForDiskIo := false }).run ⟨false, CHUNKSIZE, false, fun _ => []⟩
        kDefaultReplicationReadSize 67108864 4096 ⟨true, 0, true, false, true⟩
        ⟨1, 1, 1, 1, true, 20000, 0, 0, 0, 0, 0, 0, []⟩ { Env.ok with getForDiskIo := false }) :=
  .step (e := .run ⟨true, 0, true, false, true⟩ ⟨1, 1, 1, 1, true, 20000, 0, 0, 0, 0, 0, 0, []⟩
    { Env.ok with getForDiskIo := false }) waiting_run_reachable rfl

/-- Two `Run`s of chunk 1, the second pre-empting the first: replicator 1 is the active one. -/
theorem active_unique_preempted :
    let cfg : Cfg := ⟨false, CHUNKSIZE, false, fun _ => []⟩
    let renv : RunEnv := ⟨true, 0, true, false, true⟩
    let op : ReplicateChunkOp := ⟨1, 1, 1, 1, true, 20000, 0, 0, 0, 0, 0, 0, []⟩
    let env : Env := { Env.ok with getForDiskIo := false }
    let w := (World.init.run cfg kDefaultReplicationReadSize 67108864 4096 renv op env).run cfg
      kDefaultReplicationReadSize 67108864 4096 renv op env
    WReachable cfg kDefaultReplicationReadSize 67108864 4096 w ∧
      (w.slots[1]?).map (fun a => (a.chunkId, a.cancelled, a.destroyed)) = some (1, false, false) ∧
      Registry.find 1 w.inFlight = some (some 1) := by
  refine (fun (hm : Option.map _ _ = _) => ⟨preempting_run_reachable, hm, ?_⟩) (by decide)
  obtain ⟨a, ha, hf⟩ := Option.map_eq_some'.mp hm
  simp only [Prod.mk.injEq] at hf
  exact (active_unique preempting_run_reachable ha ha hf.1 hf.1 hf.2 hf.2).2

/-- The replicator the second `Run` pre-empted is registered nowhere and keeps its count. -/
theorem unregistered_frozen_preempted :
    let cfg : Cfg := ⟨false, CHUNKSIZE, false, fun _ => []⟩
    let renv : RunEnv := ⟨true, 0, true, false, true⟩
    let op : ReplicateChunkOp := ⟨1, 1, 1, 1, true, 20000, 0, 0, 0, 0, 0, 0, []⟩
    let env : Env := { Env.ok with getForDiskIo := false }
    let w := (World.init.run cfg kDefaultReplicationReadSize 67108864 4096 renv op env).run cfg
      kDefaultReplicationReadSize 67108864 4096 renv op env
    WReachable cfg kDefaultReplicationReadSize 67108864 4096 w ∧ (w.slots[0]?).isSome ∧
      (∀ x ∈ w.inFlight, x.2 ≠ some 0) ∧
      ∃ a b, w.slots[0]? = some a ∧ w.slots[0]? = some b ∧ b.rep.versStarts = a.rep.versStarts := by
  refine (fun (hi : Option.isSome _ = true) (hf : ∀ x ∈ World.inFlight _, _) =>
    ⟨preempting_run_reachable, hi, hf, ?_⟩) (by decide) (by decide)
  obtain ⟨a, ha⟩ := Option.isSome_iff_exists.mp hi
  exact ⟨a, unregistered_frozen preempting_run_reachable ha hf (.refl _) |>.imp
    fun _ hb => ⟨ha, hb⟩⟩

/-- `CancelAll` after one waiting replicator, then a new `Run` of its chunk: the replicator
stays cancelled. -/
theorem cancelAll_complete_one :
    let cfg : Cfg := ⟨false, CHUNKSIZE, false, fun _ => []⟩
    let renv : RunEnv := ⟨true, 0, true, false, true⟩
    let op : ReplicateChunkOp := ⟨1, 1, 1, 1, true, 20000, 0, 0, 0, 0, 0, 0, []⟩
    let env : Env := { Env.ok with getForDiskIo := false }
    let w := World.init.run cfg kDefaultReplicationReadSize 67108864 4096 renv op env
    let w₁ := w.cancelAll fun _ => env
    let w' := w₁.run cfg kDefaultReplicationReadSize 67108864 4096 renv op Env.ok
    WReachable cfg kDefaultReplicationReadSize 67108864 4096 w ∧
      w.step cfg kDefaultReplicationReadSize 67108864 4096 (.cancelAll fun _ => env) = some w₁ ∧
      WSteps cfg kDefaultReplicationReadSize 67108864 4096 w₁ w' ∧ (w.slots[0]?).isSome ∧
      ∃ b, w'.slots[0]? = some b ∧ (b.cancelled = true ∨ b.destroyed = true) := by
  refine (fun (h₁ : World.step _ _ _ _ _ _ = _) (hs : WSteps _ _ _ _ _ _)
    (hi : Option.isSome _ = true) => ⟨waiting_run_reachable, h₁, hs, hi, ?_⟩)
    (by exact rfl)
    (by exact (.tail (e := .run ⟨true, 0, true, false, true⟩
      ⟨1, 1, 1, 1, true, 20000, 0, 0, 0, 0, 0, 0, []⟩ Env.ok) (.refl _) rfl))
    (by decide)
  obtain ⟨a, ha⟩ := Option.isSome_iff_exists.mp hi
  exact cancelAll_complete waiting_run_reachable h₁ hs ha

/-- The replicator a `CancelAll` cancelled, while a new `Run` of its chunk starts. -/
theorem registry_cancel_stops_copy_swept :
    let cfg : Cfg := ⟨false, CHUNKSIZE, false, fun _ => []⟩
    let renv : RunEnv := ⟨true, 0, true, false, true⟩
    let op : ReplicateChunkOp := ⟨1, 1, 1, 1, true, 20000, 0, 0, 0, 0, 0, 0, []⟩
    let env : Env := { Env.ok with getForDiskIo := false }
    let w := (World.init.run cfg kDefaultReplicationReadSize 67108864 4096 renv op env).cancelAll
      fun _ => env
    let w' := w.run cfg kDefaultReplicationReadSize 67108864 4096 renv op Env.ok
    WReachable cfg kDefaultReplicationReadSize 67108864 4096 w ∧
      WSteps cfg kDefaultReplicationReadSize 67108864 4096 w w' ∧
      (w.slots[0]?).map (·.cancelled) = some true ∧
      ∃ a, w.slots[0]? = some a ∧ ∃ b, w'.slots[0]? = some b ∧ b.rep.allocs = a.rep.allocs ∧
        a.rep.writes <+: b.rep.writes ∧ b.rep.writes.length ≤ a.rep.writes.length + 1 := by
  have hw : WReachable ⟨false, CHUNKSIZE, false, fun _ => []⟩ kDefaultReplicationReadSize 67108864
      4096 ((World.init.run ⟨false, CHUNKSIZE, false, fun _ => []⟩ kDefaultReplicationReadSize
        67108864 4096 ⟨true, 0, true, false, true⟩ ⟨1, 1, 1, 1, true, 20000, 0, 0, 0, 0, 0, 0, []⟩
        { Env.ok with getForDiskIo := false }).cancelAll fun _ => { Env.ok with getForDiskIo := false }) :=
    .step (e := .cancelAll fun _ => { Env.ok with getForDiskIo := false }) waiting_run_reachable rfl
  refine (fun (hs : WSteps _ _ _ _ _ _) (hm : Option.map _ _ = _) => ⟨hw, hs, hm, ?_⟩)
    (by exact (.tail (e := .run ⟨true, 0, true, false, true⟩
      ⟨1, 1, 1, 1, true, 20000, 0, 0, 0, 0, 0, 0, []⟩ Env.ok) (.refl _) rfl))
    (by decide)
  obtain ⟨a, ha, hc⟩ := Option.map_eq_some'.mp hm
  exact ⟨a, ha, registry_cancel_stops_copy hw hs ha hc⟩

end

end QfsReplicator
