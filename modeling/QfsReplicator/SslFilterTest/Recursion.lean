import QfsReplicator.Basic

/-! # The recursion counter of `sslfiltertest`

The SSL filter test tool echoes data through an `SslFilter`: a `Responder` on the server side,
and on the client side an `Initiator` that copies between two local descriptors and the
connection. Each counts its own nesting in `mRecursionCount`: the connection layer may call a
handler again from inside one (through `Write`, `StartFlush` or `Close`), and only the
outermost invocation should run the flow-control block that sets the inactivity timeout and
throttles or re-enables read-ahead.

A run is a sequence of handler calls, each with the calls the connection makes from inside it,
and whether the connection is still good after `StartFlush` (if not, the object deletes
itself). `Responder::EventHandler` always decrements on the way out, so every invocation that
returns leaves the counter as it found it, and the block runs in exactly the top-level ones
(`responder_balanced`). `Initiator::FlowControl` returns early for a nested invocation without
decrementing: once one handler call nests, the counter never comes back down and the block
never runs again (`responder_balanced_initiator_climbs`). The tool itself builds neither object:
nothing in `sslfiltertest_main.cc` constructs an `Initiator`, and `CreateKfsCallbackObj`, the
one place that makes a `Responder`, is called from no acceptor, since `RunSelf` is never reached.
-/

namespace QfsReplicator

/-- The handler calls of one object, made one after another. Each call makes the calls in
`body` from inside its event's work and, if it reaches the flow-control block, those in `flush`
from inside `StartFlush` and the read-ahead changes; `good` is `IsGood()` after `StartFlush`. -/
inductive Calls
  | nil
  | call (body flush : Calls) (good : Bool) (rest : Calls)
  deriving DecidableEq, Repr

/-- One invocation: its nesting depth, `mRecursionCount` on entry, whether it ran the
flow-control block, and the count it returned with (`none`: the object was deleted). -/
structure Frame where
  depth : Nat
  entry : Int
  flow : Bool
  exit : Option Int
  deriving DecidableEq, Repr

/-- `Responder::EventHandler` for the calls `cs` at depth `d`, from `mRecursionCount = n`:
the count afterwards (`none` once the object is deleted) and every invocation, nested ones
first. -/
def responderRun : Calls → Nat → Int → Option Int × List Frame
  | .nil, _, n => (some n, [])
  | .call body flush good rest, d, n =>
    match responderRun body (d + 1) (n + 1) with
    | (none, fs) => (none, fs ++ [⟨d, n, false, none⟩])
    | (some m, fs) =>
      if m ≤ 1 then
        match responderRun flush (d + 1) m with
        | (none, gs) => (none, fs ++ gs ++ [⟨d, n, true, none⟩])
        | (some k, gs) =>
          if good then
            let r := responderRun rest d (k - 1)
            (r.1, fs ++ gs ++ [⟨d, n, true, some (k - 1)⟩] ++ r.2)
          else (none, fs ++ gs ++ [⟨d, n, true, none⟩])
      else
        let r := responderRun rest d (m - 1)
        (r.1, fs ++ [⟨d, n, false, some (m - 1)⟩] ++ r.2)

/-- `Initiator::InputHandler`, `OutputHandler` and `NetHandler`, which share one counter and
all finish through `FlowControl`, for the calls `cs` at depth `d`, from `mRecursionCount = n`.
`FlowControl` returns at once when the count is above 1, without the decrement. -/
def initiatorRun : Calls → Nat → Int → Option Int × List Frame
  | .nil, _, n => (some n, [])
  | .call body flush good rest, d, n =>
    match initiatorRun body (d + 1) (n + 1) with
    | (none, fs) => (none, fs ++ [⟨d, n, false, none⟩])
    | (some m, fs) =>
      if m > 1 then
        let r := initiatorRun rest d m
        (r.1, fs ++ [⟨d, n, false, some m⟩] ++ r.2)
      else
        match initiatorRun flush (d + 1) m with
        | (none, gs) => (none, fs ++ gs ++ [⟨d, n, true, none⟩])
        | (some k, gs) =>
          if good then
            let r := initiatorRun rest d (k - 1)
            (r.1, fs ++ gs ++ [⟨d, n, true, some (k - 1)⟩] ++ r.2)
          else (none, fs ++ gs ++ [⟨d, n, true, none⟩])

/-- Every invocation entered with its own depth as the count and ran the block only at depth 0;
unless the object was deleted under it, it returned with the count it found, having run the
block exactly if it was at depth 0. -/
def Balanced (fs : List Frame) : Prop :=
  ∀ f ∈ fs, f.entry = f.depth ∧ (f.flow = true → f.depth = 0) ∧
    (f.exit = none ∨ (f.exit = some f.entry ∧ f.flow = decide (f.depth = 0)))

/-- Every invocation found a positive count, skipped the block, and returned with a higher
count, unless it deleted the object. -/
def Climbing (fs : List Frame) : Prop :=
  ∀ f ∈ fs, 1 ≤ f.entry ∧ f.flow = false ∧ ∀ e, f.exit = some e → f.entry < e

section

variable {fs gs hs : List Frame}

theorem balanced_append (hf : Balanced fs) (hg : Balanced gs) : Balanced (fs ++ gs) :=
  fun f h => (List.mem_append.mp h).elim (hf f) (hg f)

theorem balanced_frame {d : Nat} {fl : Bool} {x : Option Int} (hfl : fl = true → d = 0)
    (hx : x = none ∨ (x = some (d : Int) ∧ fl = decide (d = 0))) : Balanced [⟨d, d, fl, x⟩] := by
  intro f hf
  rw [List.mem_singleton.mp hf]
  exact ⟨rfl, hfl, hx⟩

theorem climbing_append (hf : Climbing fs) (hg : Climbing gs) : Climbing (fs ++ gs) :=
  fun f h => (List.mem_append.mp h).elim (hf f) (hg f)

theorem climbing_frame {d : Nat} {n : Int} {x : Option Int} (hn : 1 ≤ n)
    (hx : ∀ e, x = some e → n < e) : Climbing [⟨d, n, false, x⟩] := by
  intro f hf
  rw [List.mem_singleton.mp hf]
  exact ⟨hn, rfl, hx⟩

end

/-- A `Responder` call sequence at depth `d`, entered with the count `d`, returns with `d`
unless the object is deleted, and each invocation in it is balanced. -/
theorem responderRun_balanced (cs : Calls) (d : Nat) :
    ((responderRun cs d d).1 = none ∨ (responderRun cs d d).1 = some (d : Int)) ∧
      Balanced (responderRun cs d d).2 := by
  induction cs generalizing d with
  | nil => exact ⟨.inr rfl, fun _ h => by simp [responderRun] at h⟩
  | call body flush good rest ihb ihf ihr =>
    obtain ⟨hb, hbf⟩ := ihb (d + 1)
    push_cast at hb hbf
    simp only [responderRun]
    rcases hm : responderRun body (d + 1) ((d : Int) + 1) with ⟨_ | m, fs⟩
    · rw [hm] at hbf
      exact ⟨.inl rfl, balanced_append hbf (balanced_frame (by simp) (.inl rfl))⟩
    rw [hm] at hb hbf
    obtain rfl : m = d + 1 := by simpa using hb
    have hsub : (d : Int) + 1 - 1 = d := by omega
    dsimp only
    split
    · -- the count was 0 on entry: a top-level invocation runs the block
      have hd : d = 0 := by omega
      obtain ⟨hf, hff⟩ := ihf (d + 1)
      push_cast at hf hff
      rcases hk : responderRun flush (d + 1) ((d : Int) + 1) with ⟨_ | k, gs⟩
      · rw [hk] at hff
        exact ⟨.inl rfl, balanced_append (balanced_append hbf hff)
          (balanced_frame (fun _ => hd) (.inl rfl))⟩
      rw [hk] at hf hff
      obtain rfl : k = d + 1 := by simpa using hf
      dsimp only
      split
      · obtain ⟨hr, hrf⟩ := ihr d
        rw [hsub]
        exact ⟨hr, balanced_append (balanced_append (balanced_append hbf hff)
          (balanced_frame (fun _ => hd) (.inr ⟨rfl, by simp [hd]⟩))) hrf⟩
      · exact ⟨.inl rfl, balanced_append (balanced_append hbf hff)
          (balanced_frame (fun _ => hd) (.inl rfl))⟩
    · -- a nested invocation skips the block and still decrements
      obtain ⟨hr, hrf⟩ := ihr d
      rw [hsub]
      exact ⟨hr, balanced_append (balanced_append hbf
        (balanced_frame (by simp) (.inr ⟨rfl, by simp; omega⟩))) hrf⟩

/-- `Responder::EventHandler` keeps `mRecursionCount` balanced: along any sequence of events,
with handlers re-entered from inside handlers in any pattern, every invocation that does not
delete the object returns with the count it found, the count is 0 between top-level events,
and the flow-control block runs in every top-level invocation and in no nested one. -/
theorem responder_balanced (cs : Calls) :
    ((responderRun cs 0 0).1 = none ∨ (responderRun cs 0 0).1 = some 0) ∧
      Balanced (responderRun cs 0 0).2 := by
  simpa using responderRun_balanced cs 0

/-- An `Initiator` call sequence entered with a positive count never runs the flow-control
block, and each invocation that returns leaves the count higher than it found it; so does the
sequence as a whole, if it makes any call. -/
theorem initiatorRun_climbing (cs : Calls) (d : Nat) {n : Int} (hn : 1 ≤ n) :
    (∀ r, (initiatorRun cs d n).1 = some r → n ≤ r ∧ (cs ≠ .nil → n < r)) ∧
      Climbing (initiatorRun cs d n).2 := by
  induction cs generalizing d n with
  | nil =>
    refine ⟨fun r h => ?_, fun _ h => by simp [initiatorRun] at h⟩
    cases h
    exact ⟨le_refl _, fun h => absurd rfl h⟩
  | call body flush good rest ihb _ ihr =>
    obtain ⟨hb, hbf⟩ := ihb (d + 1) (n := n + 1) (by omega)
    simp only [initiatorRun]
    rcases hm : initiatorRun body (d + 1) (n + 1) with ⟨_ | m, fs⟩
    · rw [hm] at hbf
      exact ⟨(fun _ h => nomatch h), climbing_append hbf (climbing_frame hn fun _ h => nomatch h)⟩
    · rw [hm] at hb hbf
      have hm1 := (hb m rfl).1
      dsimp only
      rw [if_pos (by omega)]
      obtain ⟨hr, hrf⟩ := ihr d (n := m) (by omega)
      exact ⟨fun r h => by have := (hr r h).1; omega, climbing_append (climbing_append hbf
        (climbing_frame hn fun e h => by cases h; omega)) hrf⟩

/-- `Initiator`'s counter is not balanced: when a top-level handler call is re-entered from
inside its work, the nested invocation leaves the count at 2 or more, so `FlowControl` skips the
block for the top-level call too and nothing ever decrements again. No invocation of the run
runs the block, and every one that returns leaves the count higher than it found it. -/
theorem initiatorRun_nested_unbalanced (body flush rest : Calls) (good : Bool)
    (hb : body ≠ .nil) :
    ∀ fr ∈ (initiatorRun (.call body flush good rest) 0 0).2,
      fr.flow = false ∧ ∀ e, fr.exit = some e → fr.entry < e := by
  obtain ⟨hr1, hbf⟩ := initiatorRun_climbing body (0 + 1) (n := 0 + 1) (by omega)
  simp only [initiatorRun]
  rcases hm : initiatorRun body (0 + 1) (0 + 1) with ⟨_ | m, fs⟩
  · rw [hm] at hbf
    dsimp only
    intro fr h
    rcases List.mem_append.mp h with h | h
    · exact ⟨(hbf fr h).2.1, (hbf fr h).2.2⟩
    · rw [List.mem_singleton.mp h]
      exact ⟨rfl, fun _ h => by cases h⟩
  · rw [hm] at hr1 hbf
    have hm2 := (hr1 m rfl).2 hb
    dsimp only
    rw [if_pos (by omega)]
    obtain ⟨-, hrf⟩ := initiatorRun_climbing rest 0 (n := m) (by omega)
    intro fr h
    rcases List.mem_append.mp h with h | h
    · rcases List.mem_append.mp h with h | h
      · exact ⟨(hbf fr h).2.1, (hbf fr h).2.2⟩
      · rw [List.mem_singleton.mp h]
        exact ⟨rfl, fun e h => by cases h; show (0 : Int) < m; omega⟩
    · exact ⟨(hrf fr h).2.1, (hrf fr h).2.2⟩

end QfsReplicator
