import QfsReplicator.Registry.World

/-! # No entry of the registry dangles

`Sound` is the registry invariant: every entry of `sInFlightReplications` points to a replicator
of its chunk that exists and is not destroyed; there is one entry per chunk, so no two entries
point to the same replicator; and every replicator is still registered for its chunk, has had
`Cancel()` called, or is destroyed. Every world step keeps it (`sound_step`), so every reachable
world has it (`sound_reachable`). From it, `Run` never finds a null entry or itself
(`implRun_spec`), `CancelAll` cancels each replicator it swaps out once (`held_nodup`), and the
destructor erases exactly the entries that point to its replicator (`destroy_inFlight`).
-/

namespace QfsReplicator

/-- `b` is replicator `a` later on: the same chunk, destroyed as it was, still cancelled if it
was. -/
def Slot.Keeps (a b : Slot) : Prop :=
  b.chunkId = a.chunkId ∧ b.destroyed = a.destroyed ∧ (a.cancelled = true → b.cancelled = true)

theorem Slot.Keeps.refl (a : Slot) : a.Keeps a := ⟨rfl, rfl, id⟩

/-- `l'` still holds every replicator of `l`, each kept. -/
def SlotsGrow (l l' : List Slot) : Prop :=
  ∀ (r : Nat) (a : Slot), l[r]? = some a → ∃ b, l'[r]? = some b ∧ Slot.Keeps a b

/-- Pointer `p` names a replicator of chunk `c` that exists and is not destroyed. -/
def World.Names (w : World) (c : Int) (p : Option Nat) : Prop :=
  ∃ r sl, p = some r ∧ w.slots[r]? = some sl ∧ sl.destroyed = false ∧ sl.chunkId = c

/-- The registry invariant. -/
structure Sound (w : World) : Prop where
  /-- Every entry names a live replicator of its chunk. -/
  live : ∀ e ∈ w.inFlight, w.Names e.1 e.2
  /-- One entry per chunk. -/
  nodup : (w.inFlight.map Prod.fst).Nodup
  /-- Every replicator is registered for its chunk, cancelled, or destroyed. -/
  accounted : ∀ (r : Nat) (sl : Slot), w.slots[r]? = some sl →
    Registry.find sl.chunkId w.inFlight = some (some r) ∨ sl.cancelled = true ∨
      sl.destroyed = true

section

variable {w w' : World} {c : Int} {p : Option Nat}

theorem World.Names.grow (h : w.Names c p) (hg : SlotsGrow w.slots w'.slots) : w'.Names c p := by
  obtain ⟨r, a, rfl, ha, hd, hc⟩ := h
  obtain ⟨b, hb, hbc, hbd, -⟩ := hg r a ha
  exact ⟨r, b, rfl, hb, hbd.trans hd, hbc.trans hc⟩

/-- The pointer of a live entry is some replicator created so far. -/
theorem World.Names.lt (h : w.Names c p) : ∃ r, p = some r ∧ r < w.slots.length := by
  obtain ⟨r, a, rfl, ha, -⟩ := h
  exact ⟨r, rfl, (List.getElem?_eq_some_iff.mp ha).1⟩

theorem slotsGrow_modify {g : Slot → Slot} (hg : ∀ a, Slot.Keeps a (g a)) (l : List Slot) (i : Nat) :
    SlotsGrow l (l.modify g i) := by
  intro r a ha
  refine ⟨if i = r then g a else a, by simp [List.getElem?_modify, ha], ?_⟩
  split
  · exact hg a
  · exact .refl a

theorem slot_of_modify {g : Slot → Slot} {l : List Slot} {i r : Nat} {b : Slot}
    (h : (l.modify g i)[r]? = some b) : ∃ a, l[r]? = some a ∧ b = if i = r then g a else a := by
  rw [List.getElem?_modify] at h
  obtain ⟨a, ha, rfl⟩ := Option.map_eq_some'.mp h
  exact ⟨a, ha, rfl⟩

theorem slotsGrow_push (b : Rep) : SlotsGrow w.slots (w.push b).slots :=
  fun r a ha => ⟨a, by rw [World.slots_push_of_lt b (List.getElem?_eq_some_iff.mp ha).1, ha],
    .refl a⟩

/-- `Sound` carries over to the same registry over replicators that changed only within
`Keeps`. -/
theorem Sound.of_slots (h : Sound w) (hf : w'.inFlight = w.inFlight)
    (hg : SlotsGrow w.slots w'.slots)
    (hb : ∀ (r : Nat) (b : Slot), w'.slots[r]? = some b → ∃ a, w.slots[r]? = some a ∧ Slot.Keeps a b) : Sound w' where
  live e he := (h.live e (hf ▸ he)).grow hg
  nodup := hf ▸ h.nodup
  accounted r b hrb := by
    obtain ⟨a, ha, hc, hd, hk⟩ := hb r b hrb
    rw [hf, hc, hd]
    exact (h.accounted r a ha).imp_right (Or.imp_left hk)

/-- A world step that only changes replicators by `g`. -/
theorem Sound.modify {g : Slot → Slot} (hg : ∀ a, Slot.Keeps a (g a)) (h : Sound w) (i : Nat) :
    Sound { w with slots := w.slots.modify g i } :=
  h.of_slots rfl (slotsGrow_modify hg _ _) fun _ _ hrb => by
    obtain ⟨a, ha, rfl⟩ := slot_of_modify hrb
    refine ⟨a, ha, ?_⟩
    split
    · exact hg a
    · exact .refl a

theorem Sound.update (h : Sound w) (i : Nat) (f : Rep → Rep) : Sound (w.update i f) :=
  h.modify (g := fun sl => { sl with rep := f sl.rep }) (fun _ => .refl _) i

theorem Sound.cancel (h : Sound w) (env : Env) (r : Nat) : Sound (w.cancel env r) :=
  h.modify (g := fun sl => { sl with rep := sl.rep.cancel env, cancelled := true })
    (fun _ => ⟨rfl, rfl, fun _ => rfl⟩) r

theorem Sound.die (h : Sound w) (m : String) : Sound (w.die m) :=
  h.of_slots rfl (fun _ a ha => ⟨a, ha, .refl a⟩) fun _ b hb => ⟨b, hb, .refl b⟩

/-- A replicator the registry has just cancelled. -/
theorem cancelled_cancel {env : Env} {r : Nat} (hr : r < w.slots.length) :
    ∃ a, (w.cancel env r).slots[r]? = some a ∧ a.cancelled = true :=
  ⟨{ w.slots[r] with rep := w.slots[r].rep.cancel env, cancelled := true },
    by simp [List.getElem?_eq_getElem hr], rfl⟩

/-! ## Each registry operation keeps the invariant -/

/-- `Run` registers a new replicator for its chunk, once the replicator registered there, if
any, is cancelled. -/
theorem Sound.register {b : Rep} {n : Nat} (h : Sound w) (hn : n = w.slots.length)
    (hfree : ∀ r, Registry.find b.op.chunkId w.inFlight = some (some r) →
      ∃ a, w.slots[r]? = some a ∧ a.cancelled = true) :
    Sound { w.push b with inFlight := Registry.assign b.op.chunkId (some n) w.inFlight } where
  live e he := by
    rcases List.mem_cons.mp he with rfl | he
    · exact ⟨n, _, rfl, hn ▸ World.slots_push_length b, rfl, rfl⟩
    · exact (h.live e (Registry.mem_erase.mp he).1).grow (slotsGrow_push b)
  nodup := Registry.nodup_assign h.nodup
  accounted q sl hq := by
    rcases World.slots_push hq with hq | ⟨rfl, rfl⟩
    · rcases h.accounted q sl hq with hf | hc
      · by_cases hc : sl.chunkId = b.op.chunkId
        · obtain ⟨a, ha, hca⟩ := hfree q (hc ▸ hf)
          cases hq.symm.trans ha
          exact .inr (.inl hca)
        · exact .inl (by rw [Registry.find_assign_of_ne hc]; exact hf)
      · exact .inr hc
    · exact .inl (by rw [hn]; exact Registry.find_assign_self)

/-- `CancelChunkReplication` erases the entry of a chunk whose replicator it has cancelled. -/
theorem Sound.eraseFlight {r : Nat} (h : Sound w) (hf : Registry.find c w.inFlight = some (some r))
    (hr : ∃ a, w.slots[r]? = some a ∧ a.cancelled = true) :
    Sound { w with inFlight := Registry.erase c w.inFlight } where
  live e he := h.live e (Registry.mem_erase.mp he).1
  nodup := Registry.nodup_erase h.nodup
  accounted q sl hq := by
    dsimp only
    rw [Registry.find_erase]
    split
    · rename_i hc
      rcases h.accounted q sl hq with hq' | hrest
      · obtain ⟨a, ha, hca⟩ := hr
        rw [hc, hf] at hq'
        cases hq'
        cases hq.symm.trans ha
        exact .inr (.inl hca)
      · exact .inr hrest
    · exact h.accounted q sl hq

/-- With one entry per chunk, and each entry naming a replicator of its own chunk, no two
entries point to the same replicator. -/
theorem pointers_nodup {g : Nat → Int} {m : List (Int × Option Nat)} (hn : (m.map Prod.fst).Nodup)
    (hg : ∀ e ∈ m, ∀ r, e.2 = some r → g r = e.1) : (m.filterMap Prod.snd).Nodup := by
  induction m with
  | nil => exact List.nodup_nil
  | cons e m ih =>
    rw [List.map_cons, List.nodup_cons] at hn
    have ih' := ih hn.2 fun x hx => hg x (List.mem_cons_of_mem _ hx)
    obtain ⟨c, _ | r⟩ := e
    · simpa using ih'
    · refine List.nodup_cons.mpr ⟨fun hr => hn.1 ?_, ih'⟩
      obtain ⟨x, hx, hxr⟩ := List.mem_filterMap.mp hr
      exact List.mem_map.mpr ⟨x, hx,
        (hg x (List.mem_cons_of_mem _ hx) r hxr).symm.trans (hg _ (List.mem_cons_self _ _) r rfl)⟩

theorem Sound.held_nodup (h : Sound w) : w.held.Nodup :=
  pointers_nodup (g := fun r => ((w.slots[r]?).map Slot.chunkId).getD 0) h.nodup fun e he r hr => by
    obtain ⟨q, sl, hq, hsl, -, hc⟩ := h.live e he
    rw [hr] at hq
    cases hq
    simp [hsl, hc]

/-- `CancelAll` empties the registry and cancels every replicator it held. -/
theorem Sound.cancelAll (h : Sound w) (env : Nat → Env) : Sound (w.cancelAll env) where
  live e he := by simp [World.cancelAll] at he
  nodup := by simp [World.cancelAll]
  accounted q sl hq := by
    unfold World.cancelAll at hq
    by_cases hm : q ∈ w.held
    · rw [World.slots_cancelLoop_of_mem env _ _ h.held_nodup hm] at hq
      obtain ⟨a, -, rfl⟩ := Option.map_eq_some'.mp hq
      exact .inr (.inl rfl)
    · rw [World.slots_cancelLoop_of_not_mem env _ _ hm] at hq
      rcases h.accounted q sl hq with hf | hrest
      · exact (hm (List.mem_filterMap.mpr ⟨_, Registry.mem_of_find hf, rfl⟩ : q ∈ w.inFlight.filterMap Prod.snd)).elim
      · exact .inr hrest

theorem Sound.cancelChunk (h : Sound w) (tv : Int) (env : Env) :
    Sound (w.cancelChunkReplication c tv env).2 := by
  unfold World.cancelChunkReplication
  split
  · rename_i r hf
    split
    · rename_i sl hsl
      split
      · exact h
      · exact (h.cancel env r).eraseFlight hf (cancelled_cancel (List.getElem?_eq_some_iff.mp hsl).1)
    · exact h
  · exact h

/-- An entry that points to replicator `i` is the entry of its chunk. -/
theorem Sound.find_of_points {i : Nat} {sl : Slot} {e : Int × Option Nat} (h : Sound w)
    (hi : w.slots[i]? = some sl) (he : e ∈ w.inFlight) (hp : e.2 = some i) :
    e.1 = sl.chunkId ∧ Registry.find sl.chunkId w.inFlight = some (some i) := by
  obtain ⟨r, a, hr, ha, -, hc⟩ := h.live e he
  rw [hp] at hr
  cases hr
  cases hi.symm.trans ha
  refine ⟨hc.symm, ?_⟩
  rw [hc, ← hp]
  exact Registry.find_of_mem h.nodup he

/-- The destructor of replicator `i` of a sound world marks it destroyed and erases exactly the
registry entries that point to it. -/
theorem Sound.destroy_eq {i : Nat} {sl : Slot} (h : Sound w) (hsl : w.slots[i]? = some sl) :
    w.destroy i = { w with
      slots := w.slots.modify (fun sl => { sl with destroyed := true }) i
      inFlight := w.inFlight.filter fun e => e.2 != some i } := by
  unfold World.destroy
  rw [hsl]
  dsimp only
  split
  · rename_i r hf
    split
    · rename_i hri
      subst hri
      congr 1
      refine List.filter_congr fun e he => ?_
      show (e.1 != sl.chunkId) = (e.2 != some r)
      by_cases hp : e.2 = some r
      · simp [hp, (h.find_of_points hsl he hp).1]
      · have hc : e.1 ≠ sl.chunkId := fun hc => hp (by
          have := Registry.find_of_mem h.nodup he
          rw [hc, hf] at this
          exact (Option.some.inj this).symm)
        rw [bne_iff_ne.mpr hc, bne_iff_ne.mpr hp]
    · rename_i hri
      congr 1
      refine (List.filter_eq_self.mpr fun e he => ?_).symm
      simp only [bne_iff_ne, ne_eq]
      intro hp
      rw [(h.find_of_points hsl he hp).2] at hf
      cases hf
      exact hri rfl
  · rename_i hf
    congr 1
    refine (List.filter_eq_self.mpr fun e he => ?_).symm
    simp only [bne_iff_ne, ne_eq]
    exact fun hp => hf _ (h.find_of_points hsl he hp).2

/-- The destructor keeps the invariant. -/
theorem Sound.destroyed {i : Nat} (h : Sound w) :
    Sound { w with
      slots := w.slots.modify (fun sl => { sl with destroyed := true }) i
      inFlight := w.inFlight.filter fun e => e.2 != some i } := by
  have hnd : ((w.inFlight.filter fun e => e.2 != some i).map Prod.fst).Nodup :=
    h.nodup.sublist ((List.filter_sublist _).map _)
  have names (e : Int × Option Nat) (hn : w.Names e.1 e.2) (he : e.2 ≠ some i) :
      World.Names { w with
        slots := w.slots.modify (fun sl => { sl with destroyed := true }) i
        inFlight := w.inFlight.filter fun e => e.2 != some i } e.1 e.2 := by
    obtain ⟨r, a, hr, ha, hd, hc⟩ := hn
    have hri : i ≠ r := fun hir => he (hir ▸ hr)
    exact ⟨r, a, hr, by simp [List.getElem?_modify, ha, hri], hd, hc⟩
  refine ⟨fun e he => ?_, hnd, fun q b hq => ?_⟩
  · obtain ⟨he, hp⟩ := List.mem_filter.mp he
    exact names e (h.live e he) (by simpa using hp)
  · obtain ⟨a, ha, rfl⟩ := slot_of_modify hq
    split
    · exact .inr (.inr rfl)
    · rename_i hiq
      rcases h.accounted q a ha with hfq | hrest
      · refine .inl (Registry.find_of_mem hnd (List.mem_filter.mpr ⟨Registry.mem_of_find hfq, ?_⟩))
        simpa using Ne.symm hiq
      · exact .inr hrest

theorem World.releasable_slot {i : Nat} (hi : w.releasable i = true) : ∃ sl, w.slots[i]? = some sl := by
  unfold World.releasable at hi
  split at hi
  · exact ⟨_, by assumption⟩
  · cases hi

theorem Sound.destroy {i : Nat} (h : Sound w) (hi : w.releasable i = true) : Sound (w.destroy i) := by
  obtain ⟨sl, hsl⟩ := World.releasable_slot hi
  rw [h.destroy_eq hsl]
  exact h.destroyed

/-- In a sound world, `ReplicatorImpl::Run` of a new replicator finds its chunk free, or held by
an older live replicator. -/
theorem Sound.find_new (h : Sound w) (b : Rep) :
    Registry.find b.op.chunkId w.inFlight = none ∨
      ∃ r, Registry.find b.op.chunkId w.inFlight = some (some r) ∧ r < w.slots.length := by
  rcases hf : Registry.find b.op.chunkId w.inFlight with _ | p
  · exact .inl rfl
  · obtain ⟨r, rfl, hr⟩ := (h.live _ (Registry.mem_of_find hf)).lt
    exact .inr ⟨r, rfl, hr⟩

/-- `ReplicatorImpl::Run` of a new replicator `b` in a sound world: its chunk was free, or held
by an older replicator `r`, which is cancelled before `b` is registered. -/
theorem Sound.implRun_eq (h : Sound w) (cfg : Cfg) (env : Env) (b : Rep) :
    (Registry.find b.op.chunkId w.inFlight = none ∧
      (w.push b).implRun cfg env w.slots.length =
        { w.push b with inFlight := Registry.assign b.op.chunkId (some w.slots.length) w.inFlight }.update
          w.slots.length (·.run cfg env)) ∨
    ∃ r, Registry.find b.op.chunkId w.inFlight = some (some r) ∧ r < w.slots.length ∧
      (w.push b).implRun cfg env w.slots.length =
        if b.cancelFlag then
          { (w.cancel env r).push b with
            inFlight := Registry.assign b.op.chunkId (some w.slots.length) w.inFlight }.update
              w.slots.length (·.terminate env ECANCELED)
        else
          { (w.cancel env r).push b with
            inFlight := Registry.assign b.op.chunkId (some w.slots.length) w.inFlight }.update
              w.slots.length (·.run cfg env) := by
  unfold World.implRun
  rw [World.slots_push_length]
  dsimp only
  rcases h.find_new b with hf | ⟨r, hf, hr⟩
  · rw [show (w.push b).inFlight = w.inFlight from rfl, hf]
    exact .inl ⟨rfl, rfl⟩
  · rw [show (w.push b).inFlight = w.inFlight from rfl, hf]
    dsimp only
    rw [if_neg (Nat.ne_of_lt hr), World.cancel_push env b hr,
      World.slots_push_at b (World.length_cancel env).symm]
    exact .inr ⟨r, rfl, hr, rfl⟩

theorem Sound.implRun (h : Sound w) (cfg : Cfg) (env : Env) (b : Rep) :
    Sound ((w.push b).implRun cfg env w.slots.length) := by
  rcases h.implRun_eq cfg env b with ⟨hf, he⟩ | ⟨r, hf, hr, he⟩
  · rw [he]
    exact (h.register rfl fun r hr => by rw [hf] at hr; cases hr).update _ _
  · rw [he]
    have hs := (h.cancel env r).register (b := b) (n := w.slots.length) (by simp) fun q hq => by
      rw [show (w.cancel env r).inFlight = w.inFlight from rfl, hf] at hq
      cases hq
      exact cancelled_cancel hr
    split <;> exact hs.update _ _

theorem Sound.run (h : Sound w) (cfg : Cfg) (maxReadSize quota ioBufferSize : Int) (renv : RunEnv)
    (op : ReplicateChunkOp) (env : Env) :
    Sound (w.run cfg maxReadSize quota ioBufferSize renv op env) := by
  unfold World.run
  split
  · exact h
  · exact h.die _
  · exact h.implRun cfg env _

/-- Every world step keeps the registry invariant. -/
theorem sound_step {cfg : Cfg} {maxReadSize quota ioBufferSize : Int} {e : WEvent} (h : Sound w)
    (hs : w.step cfg maxReadSize quota ioBufferSize e = some w') : Sound w' := by
  obtain ⟨-, he, rfl⟩ := World.step_eq_some hs
  cases e with
  | run renv op env => exact h.run cfg maxReadSize quota ioBufferSize renv op env
  | cancelChunk c tv env => exact h.cancelChunk tv env
  | cancelAll env => exact h.cancelAll env
  | rep i env e => exact h.update i _
  | destroy i =>
    simp only [WEvent.enabled, Bool.and_eq_true] at he
    exact h.destroy he.2

/-- Every reachable world has the registry invariant. -/
theorem sound_reachable {cfg : Cfg} {maxReadSize quota ioBufferSize : Int}
    (h : WReachable cfg maxReadSize quota ioBufferSize w) : Sound w := by
  induction h with
  | init => exact ⟨fun _ h => (by cases h), List.nodup_nil, fun _ _ h => (by cases h)⟩
  | step _ hs ih => exact sound_step ih hs

/-! ## What the invariant gives -/

/-- `ReplicatorImpl::Run` of a new replicator registers it for its chunk and never reaches its
`die`; the replicator registered there before, if any, is cancelled. -/
theorem Sound.implRun_spec (h : Sound w) (cfg : Cfg) (env : Env) (b : Rep) :
    let w' := (w.push b).implRun cfg env w.slots.length
    w'.inFlight = Registry.assign b.op.chunkId (some w.slots.length) w.inFlight ∧
      w'.dead = w.dead ∧
      ∀ r, Registry.find b.op.chunkId w.inFlight = some (some r) →
        ∃ a, w'.slots[r]? = some a ∧ a.cancelled = true := by
  intro w'
  rcases h.implRun_eq cfg env b with ⟨hf, he⟩ | ⟨r, hf, hr, he⟩
  · rw [show w' = _ from he]
    exact ⟨rfl, rfl, fun r hr => by rw [hf] at hr; cases hr⟩
  · rw [show w' = _ from he]
    have hr' : r < (w.cancel env r).slots.length := by simpa using hr
    obtain ⟨a, ha, hca⟩ : ∃ a, (w.cancel env r).slots[r]? = some a ∧ a.cancelled = true :=
      cancelled_cancel hr
    have hc (f : Rep → Rep) : ∃ a, ({ (w.cancel env r).push b with
        inFlight := Registry.assign b.op.chunkId (some w.slots.length) w.inFlight }.update
          w.slots.length f).slots[r]? = some a ∧ a.cancelled = true :=
      ⟨a, by simp [Nat.ne_of_gt hr, World.slots_push_of_lt b hr', ha], hca⟩
    split <;> exact ⟨rfl, rfl, fun q hq => by rw [hf] at hq; cases hq; exact hc _⟩

/-- `~ReplicatorImpl` erases exactly the registry entries that point to its replicator. -/
theorem Sound.destroy_inFlight {i : Nat} (h : Sound w) (hi : w.releasable i = true) :
    (w.destroy i).inFlight = w.inFlight.filter fun e => e.2 != some i := by
  obtain ⟨sl, hsl⟩ := World.releasable_slot hi
  rw [h.destroy_eq hsl]

end

end QfsReplicator
