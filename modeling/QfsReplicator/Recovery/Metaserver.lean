import QfsReplicator.Basic

/-! # Meta server slots

`RSReplicatorImpl::GetMetaserver` hands each new recovery one of `sMaxCount` meta server
clients, `max(0, GetClientThreadCount()) + 1` of them: slot 0 runs on the global network
manager and slot `i > 0` on client thread `i - 1`. Two arrays of that size, one with
authentication contexts and one without, are built by `CreateMetaServers` on the first call
that has an op. The slot is a wrap-around counter `sLastIdx`, bounded by `sMaxRecoveryThreads`,
which `SetParameters` may change between calls, and reset by `StopMetaServers`.

`slots_in_bounds` shows that along any sequence of calls every slot is an index of both arrays
and every client thread asked for exists.
-/

namespace QfsReplicator

/-- The statics `GetMetaserver` keeps and reads: `sLastIdx`, whether its function-local arrays
are built, and `sMaxRecoveryThreads`. -/
structure MetaSlots where
  lastIdx : Int
  built : Bool
  maxRecoveryThreads : Int
  deriving DecidableEq, Repr

/-- The statics before the first call: `sLastIdx = -1`, `sMaxRecoveryThreads = 16`. -/
def MetaSlots.init : MetaSlots := ⟨-1, false, 16⟩

/-- What one call uses: the slot `mServers + sLastIdx` it returns, if any, and the indices it
passes to `gClientManager.GetClientThread`. -/
structure MetaUse where
  slot : Option Int
  threads : List Int
  deriving DecidableEq, Repr

/-- `sMaxCount` for `threadCount` client threads. -/
def metaMaxCount (threadCount : Int) : Int := max 0 threadCount + 1

/-- The client threads `CreateMetaServers(inMaxCount, ...)` asks for: `i - 1` for each slot
`i > 0`. -/
def createMetaServers (inMaxCount : Int) : List Int :=
  (List.range inMaxCount.toNat).filterMap fun (i : Nat) => if i = 0 then none else some ((i : Int) - 1)

/-- The wrap-around step of `sLastIdx`: `++sLastIdx`, and back to slot 1 (slot 0 with a single
slot or no recovery threads) once it reaches `min(sMaxRecoveryThreads, sMaxCount)`. -/
def nextSlot (maxRecoveryThreads sMaxCount lastIdx : Int) : Int :=
  if min maxRecoveryThreads sMaxCount ≤ lastIdx + 1 then
    (if sMaxCount ≤ 1 ∨ maxRecoveryThreads ≤ 0 then 0 else 1)
  else lastIdx + 1

/-- `RSReplicatorImpl::GetMetaserver(authFlag, op, clientThread)`, with `withOp` for a non-null
`op` (`Create`) and `threadCount` client threads. A null `op` (`StopMetaServers`) stops the
servers and resets `sLastIdx`; both arrays are built on the first call that passes the reset
check. -/
def getMetaserver (threadCount : Int) (withOp : Bool) (m : MetaSlots) : MetaSlots × MetaUse :=
  if m.lastIdx < 0 ∧ withOp = false then (m, ⟨none, []⟩)
  else
    let lastIdx := if m.lastIdx < 0 then 0 else m.lastIdx
    let sMaxCount := metaMaxCount threadCount
    let created := if m.built then [] else
      createMetaServers sMaxCount ++ createMetaServers sMaxCount
    if withOp = false then ({ m with lastIdx := -1, built := true }, ⟨none, created⟩)
    else
      let idx := nextSlot m.maxRecoveryThreads sMaxCount lastIdx
      ({ m with lastIdx := idx, built := true },
        ⟨some idx, created ++ if idx ≤ 0 then [] else [idx - 1]⟩)

/-- A call that reaches the meta server slots. -/
inductive MetaCall
  /-- `GetMetaserver`, from `Create` (`withOp`) or from `StopMetaServers`. -/
  | getMetaserver (withOp : Bool)
  /-- `SetParameters` with a new `chunkServer.rsReader.maxRecoveryThreads`. -/
  | setParameters (maxRecoveryThreads : Int)
  deriving DecidableEq, Repr

def MetaCall.apply (threadCount : Int) : MetaCall → MetaSlots → MetaSlots × MetaUse
  | .getMetaserver withOp, m => QfsReplicator.getMetaserver threadCount withOp m
  | .setParameters n, m => ({ m with maxRecoveryThreads := n }, ⟨none, []⟩)

/-- The uses of the calls `cs`, made in order from `m`. -/
def metaUses (threadCount : Int) : List MetaCall → MetaSlots → List MetaUse
  | [], _ => []
  | c :: cs, m => (c.apply threadCount m).2 :: metaUses threadCount cs (c.apply threadCount m).1

/-- A use stays inside the arrays of `sMaxCount` entries and asks only for existing client
threads. -/
def MetaUse.InBounds (threadCount : Int) (u : MetaUse) : Prop :=
  (∀ i ∈ u.slot, 0 ≤ i ∧ i < metaMaxCount threadCount) ∧ ∀ t ∈ u.threads, 0 ≤ t ∧ t < threadCount

/-- Between calls `sLastIdx` is reset (`-1`) or a slot. -/
def SlotInv (threadCount : Int) (m : MetaSlots) : Prop :=
  -1 ≤ m.lastIdx ∧ m.lastIdx < metaMaxCount threadCount

section

variable {threadCount : Int} {m : MetaSlots}

theorem slotInv_init : SlotInv threadCount MetaSlots.init := by
  unfold SlotInv MetaSlots.init metaMaxCount
  dsimp only
  omega

theorem createMetaServers_bounds {t : Int} (h : t ∈ createMetaServers (metaMaxCount threadCount)) :
    0 ≤ t ∧ t < threadCount := by
  unfold createMetaServers metaMaxCount at h
  obtain ⟨i, hi, hit⟩ := List.mem_filterMap.mp h
  rw [List.mem_range] at hi
  split at hit
  · cases hit
  · cases hit
    omega

/-- From a slot, the next one is a slot, and a slot past 0 names an existing client thread. -/
theorem nextSlot_bounds {r l : Int} (h0 : 0 ≤ l) (h1 : l < metaMaxCount threadCount) :
    0 ≤ nextSlot r (metaMaxCount threadCount) l ∧
      nextSlot r (metaMaxCount threadCount) l < metaMaxCount threadCount ∧
      (0 < nextSlot r (metaMaxCount threadCount) l →
        nextSlot r (metaMaxCount threadCount) l - 1 < threadCount) := by
  unfold nextSlot metaMaxCount at *
  split_ifs <;> omega

/-- One call keeps `sLastIdx` a slot or reset, and uses only slots and existing threads. -/
theorem getMetaserver_inBounds (h : SlotInv threadCount m) (withOp : Bool) :
    SlotInv threadCount (getMetaserver threadCount withOp m).1 ∧
      (getMetaserver threadCount withOp m).2.InBounds threadCount := by
  unfold SlotInv at h
  unfold getMetaserver
  split
  · exact ⟨h, by simp [MetaUse.InBounds]⟩
  · have hl : 0 ≤ (if m.lastIdx < 0 then 0 else m.lastIdx) ∧
        (if m.lastIdx < 0 then 0 else m.lastIdx) < metaMaxCount threadCount := by
      unfold metaMaxCount at *
      split <;> omega
    have hc : ∀ t ∈ (if m.built then [] else createMetaServers (metaMaxCount threadCount) ++
        createMetaServers (metaMaxCount threadCount)), 0 ≤ t ∧ t < threadCount := by
      intro t ht
      split at ht
      · cases ht
      · rcases List.mem_append.mp ht with ht | ht <;> exact createMetaServers_bounds ht
    dsimp only
    generalize (if m.lastIdx < 0 then (0 : Int) else m.lastIdx) = l at hl ⊢
    generalize (if m.built then ([] : List Int) else createMetaServers (metaMaxCount threadCount) ++
      createMetaServers (metaMaxCount threadCount)) = created at hc ⊢
    split
    · exact ⟨⟨le_refl _, show (-1 : Int) < max 0 threadCount + 1 by omega⟩, by simp, hc⟩
    · obtain ⟨h0, h1, h2⟩ := nextSlot_bounds (r := m.maxRecoveryThreads) hl.1 hl.2
      refine ⟨⟨by dsimp only; omega, h1⟩, by simpa using ⟨h0, h1⟩, fun t ht => ?_⟩
      rcases List.mem_append.mp ht with ht | ht
      · exact hc t ht
      · split at ht
        · cases ht
        · rw [List.mem_singleton.mp ht]
          omega

/-- Any call keeps the counter a slot or reset, and uses only slots and existing threads. -/
theorem metaCall_inBounds (h : SlotInv threadCount m) (c : MetaCall) :
    SlotInv threadCount (c.apply threadCount m).1 ∧ (c.apply threadCount m).2.InBounds threadCount := by
  cases c with
  | getMetaserver withOp => exact getMetaserver_inBounds h withOp
  | setParameters n => exact ⟨h, by simp [MetaCall.apply, MetaUse.InBounds]⟩

theorem metaUses_inBounds (cs : List MetaCall) (h : SlotInv threadCount m) :
    ∀ u ∈ metaUses threadCount cs m, u.InBounds threadCount := by
  induction cs generalizing m with
  | nil => simp [metaUses]
  | cons c cs ih =>
    obtain ⟨h', hu⟩ := metaCall_inBounds h c
    intro u hu'
    rcases List.mem_cons.mp hu' with rfl | hu'
    · exact hu
    · exact ih h' u hu'

end

/-- Along any sequence of `GetMetaserver` calls, with or without an op, and of `SetParameters`
calls setting `sMaxRecoveryThreads` to any `int`, every slot `mServers + sLastIdx` used is in
`[0, sMaxCount)` and every `GetClientThread` index is in `[0, GetClientThreadCount())`. -/
theorem slots_in_bounds (threadCount : Int) (cs : List MetaCall) :
    ∀ u ∈ metaUses threadCount cs MetaSlots.init, u.InBounds threadCount :=
  metaUses_inBounds cs slotInv_init

/-- Two client threads: `Create` takes slots 1 and 2 and wraps to 1; with `sMaxRecoveryThreads`
lowered to 1 it stays on slot 1, and after `StopMetaServers` it starts again from slot 1. -/
theorem slots_in_bounds_two_threads :
    (metaUses 2 [.getMetaserver true, .getMetaserver true, .getMetaserver true, .setParameters 1,
      .getMetaserver true, .getMetaserver false, .getMetaserver true] MetaSlots.init).map
        MetaUse.slot = [some 1, some 2, some 1, none, some 1, none, some 1] ∧
    ∀ u ∈ metaUses 2 [.getMetaserver true, .getMetaserver true, .getMetaserver true,
      .setParameters 1, .getMetaserver true, .getMetaserver false, .getMetaserver true]
        MetaSlots.init, u.InBounds 2 :=
  ⟨by decide, slots_in_bounds 2 _⟩

end QfsReplicator
