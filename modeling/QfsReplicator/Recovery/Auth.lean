import QfsReplicator.Basic

/-! # Credentials of authenticated recoveries

`RSReplicatorImpl::Create` writes an authenticated op's `psk.keyId` and `psk.key` into the shared
`sAuthParams`, counting every change in `sAuthUpdateCount`, and hands the replicator its meta
server slot's update counter only if the slot is behind. `HandleStart` reloads the slot's
`ClientAuthContext` when the counter is behind and then sets the counter, whether or not the
reload succeeded. The model follows `sAuthParams`, the counter and the last successful load of
every slot, and records the load each reader was opened with.
-/

namespace QfsReplicator

/-- A meta server slot of the authenticated set (`MetaServers::Entry`). -/
structure AuthSlot where
  /-- `mAuthUpdateCount`. -/
  updateCount : Nat
  /-- `sAuthUpdateCount` when the slot's `ClientAuthContext` last loaded `sAuthParams`
  successfully; `none` before its first load. -/
  loadedAt : Option Nat
  deriving DecidableEq, Repr

/-- An authenticated recovery replicator between `Create` and `HandleStart`. -/
structure AuthRep where
  slot : Nat
  /-- `mAuthUpdateCount != 0`. -/
  counterPtr : Bool
  /-- `sAuthUpdateCount` once `Create` had put the op's credentials into `sAuthParams`. -/
  credsAt : Nat
  deriving DecidableEq, Repr

/-- The shared credential state of the chunk server. -/
structure Auth where
  /-- `psk.keyId` in `sAuthParams`. -/
  keyId : Option String
  /-- `psk.key` in `sAuthParams`. -/
  key : Option String
  /-- `sAuthUpdateCount`. -/
  updateCount : Nat
  slots : Nat → AuthSlot
  /-- Created replicators whose `HandleStart` has not run. -/
  pending : List AuthRep
  /-- Every reader opened, with the replicator and its slot's `loadedAt` at that moment. -/
  opened : List (AuthRep × Option Nat)

/-- The chunk server at start: nothing loaded, every counter 0. -/
def Auth.init : Auth := ⟨none, none, 0, fun _ => ⟨0, none⟩, [], []⟩

/-- What changes the credential state. -/
inductive AuthEvent
  /-- `SetParameters` with an auth-prefixed `psk.keyId` and `psk.key`. -/
  | setParameters (keyId key : Option String)
  /-- `RSReplicatorImpl::Create` for an op carrying `keyId` and `key`, on the slot
  `GetMetaserver` picked. -/
  | create (slot : Nat) (keyId key : String)
  /-- `HandleStart` of the `i`-th pending replicator; `reloadOk` is whether the slot context's
  `SetParameters` succeeds if it reloads, `serverOk` whether `SetServer` succeeds. -/
  | handleStart (i : Nat) (reloadOk serverOk : Bool)

namespace Auth

/-- The `copyWithPrefix` of `RSReplicatorImpl::SetParameters`. -/
def setParameters (keyId key : Option String) (a : Auth) : Auth :=
  { a with keyId := keyId, key := key, updateCount := a.updateCount + 1 }

/-- `RSReplicatorImpl::Create` for an authenticated op. -/
def create (slot : Nat) (keyId key : String) (a : Auth) : Auth :=
  let a := if a.keyId ≠ some keyId then
      { a with keyId := some keyId, updateCount := a.updateCount + 1 } else a
  let a := if a.key ≠ some key then
      { a with key := some key, updateCount := a.updateCount + 1 } else a
  { a with pending := a.pending ++
      [⟨slot, decide ((a.slots slot).updateCount ≠ a.updateCount), a.updateCount⟩] }

/-- The authentication block of `RSReplicatorImpl::HandleStart`, then `mReader.Open` when the
status is still non-negative after `SetServer`. -/
def handleStart (r : AuthRep) (reloadOk serverOk : Bool) (a : Auth) : Auth :=
  let sl := a.slots r.slot
  let reload := r.counterPtr && decide (sl.updateCount ≠ a.updateCount)
  let sl' : AuthSlot :=
    if reload then ⟨a.updateCount, if reloadOk then some a.updateCount else sl.loadedAt⟩ else sl
  let a := { a with slots := Function.update a.slots r.slot sl' }
  if (reload && !reloadOk) || !serverOk then a
  else { a with opened := a.opened ++ [(r, sl'.loadedAt)] }

/-- One event; `none` when `HandleStart` names no pending replicator. -/
def step : AuthEvent → Auth → Option Auth
  | .setParameters k v, a => some (a.setParameters k v)
  | .create slot k v, a => some (a.create slot k v)
  | .handleStart i ok so, a =>
    match a.pending.get? i with
    | some r => some ({ a with pending := a.pending.eraseIdx i }.handleStart r ok so)
    | none => none

end Auth

/-- The credential states reachable from `Auth.init`. -/
inductive AuthReachable : Auth → Prop
  | init : AuthReachable Auth.init
  | step {a a' : Auth} {e : AuthEvent} : AuthReachable a → a.step e = some a' → AuthReachable a'

/-- The events `es` one after the other. -/
def Auth.run : List AuthEvent → Auth → Option Auth
  | [], a => some a
  | e :: es, a => (a.step e).bind (Auth.run es)

theorem AuthReachable.run {es : List AuthEvent} {a b : Auth} (h : AuthReachable a)
    (hr : a.run es = some b) : AuthReachable b := by
  induction es generalizing a with
  | nil => exact (Option.some.inj hr) ▸ h
  | cons e es ih =>
      simp only [Auth.run, Option.bind_eq_some] at hr
      obtain ⟨a', he, hr⟩ := hr
      exact ih (.step h he) hr

/-- After a slot's reload fails, the failed replicator still advances the slot's counter; the
next replicator with the same credentials gets no counter and opens its reader with the
context loaded from the credentials before theirs: loaded at count 2, its own at count 4. -/
theorem stale_credentials_after_failed_reload :
    ∃ b, Auth.init.run [.create 0 "k0" "s0", .handleStart 0 true true,
        .create 0 "k1" "s1", .handleStart 0 false true, .create 0 "k1" "s1",
        .handleStart 0 true true] = some b ∧
      AuthReachable b ∧ (⟨0, false, 4⟩, some 2) ∈ b.opened :=
  ⟨_, rfl, @AuthReachable.run [.create 0 "k0" "s0", .handleStart 0 true true,
    .create 0 "k1" "s1", .handleStart 0 false true, .create 0 "k1" "s1", .handleStart 0 true true]
    _ _ .init rfl, by decide⟩

end QfsReplicator
