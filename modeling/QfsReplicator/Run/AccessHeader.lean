import QfsReplicator.Model.Admission

/-! # The access header of `Replicator::Run`

`Replicator::Run` reads a session token and a key out of `op->chunkServerAccess` with four
pointer loops: skip blank bytes, take non-blank ones, skip blanks again, take non-blanks again,
where a byte is blank when `(*p & 0xFF) <= ' '`. `accessWords` is those loops as `dropWhile` and
`takeWhile`. Read as words, the header is its maximal runs of bytes above `0x20` (`wordRuns`),
and the loops pick exactly the first two of them (`accessWords_eq_wordRuns`). `Run` rejects the
op as malformed exactly when one of the two is empty, and otherwise passes both on, unchanged,
to the call that connects to the peer or creates the recovery (`run_access_header`).
-/

namespace QfsReplicator

/-- A byte that belongs to a word of the header: above `0x20`, compared as unsigned. -/
def wordByte (c : UInt8) : Bool := decide (0x20 < c.toNat)

/-- The maximal runs of word bytes of `s`, in order. -/
def wordRuns (s : List UInt8) : List (List UInt8) :=
  (s.splitOnP (fun c => !wordByte c)).filter (fun w => !w.isEmpty)

theorem isSpace_eq_not_wordByte (c : UInt8) : isSpace c = !wordByte c := by
  unfold isSpace wordByte
  rw [Bool.eq_iff_iff]
  simp only [decide_eq_true_eq, Bool.not_eq_true', decide_eq_false_iff_not, not_lt]
  exact Iff.rfl

@[simp] theorem wordRuns_nil : wordRuns [] = [] := rfl

/-- A blank byte only separates words. -/
theorem wordRuns_blank {c : UInt8} (hc : isSpace c = true) (s : List UInt8) :
    wordRuns (c :: s) = wordRuns s := by
  rw [isSpace_eq_not_wordByte] at hc
  simp [wordRuns, List.splitOnP_cons, hc]

theorem wordRuns_dropWhile (s : List UInt8) : wordRuns (s.dropWhile isSpace) = wordRuns s := by
  induction s with
  | nil => rfl
  | cons c s ih =>
    rw [List.dropWhile_cons]
    split
    · rw [ih, wordRuns_blank ‹_›]
    · rfl

/-- A word followed by nothing or by a blank byte is the first of the runs. -/
theorem wordRuns_word {w r : List UInt8} (hw : ∀ c ∈ w, isSpace c = false) (hne : w ≠ [])
    (hr : ∀ h : r ≠ [], isSpace (r.head h) = true) : wordRuns (w ++ r) = w :: wordRuns r := by
  have hw' : ∀ c ∈ w, ¬(!wordByte c) = true := fun c hc => by
    rw [← isSpace_eq_not_wordByte, hw c hc]
    exact Bool.false_ne_true
  have hwe : (!w.isEmpty) = true := by simpa using hne
  cases r with
  | nil =>
    simp only [wordRuns, List.append_nil, List.splitOnP_eq_single _ _ hw', List.filter_cons, hwe,
      if_true, List.filter_nil, List.splitOnP_nil]
    rfl
  | cons c r =>
    have hc : isSpace c = true := hr (List.cons_ne_nil c r)
    rw [wordRuns_blank hc]
    rw [isSpace_eq_not_wordByte] at hc
    simp only [wordRuns, List.splitOnP_first _ _ hw' c hc, List.filter_cons, hwe, if_true]

/-- The scanner's step: past the leading blanks, the run of non-blank bytes is the first word,
and the words after it are those of the rest. -/
theorem wordRuns_scan (s : List UInt8) :
    wordRuns s = if s.dropWhile isSpace = [] then [] else
      ((s.dropWhile isSpace).takeWhile (!isSpace ·)) ::
        wordRuns ((s.dropWhile isSpace).dropWhile (!isSpace ·)) := by
  rw [← wordRuns_dropWhile s]
  generalize hp : s.dropWhile isSpace = p
  have hhead := List.head_dropWhile_not isSpace s
  rw [hp] at hhead
  split
  · rename_i h
    rw [h]
    rfl
  · rename_i h
    conv_lhs => rw [← List.takeWhile_append_dropWhile (!isSpace ·) p]
    refine wordRuns_word (fun c hc => by simpa using List.mem_takeWhile_imp hc) ?_ ?_
    · obtain ⟨a, p', rfl⟩ := List.exists_cons_of_ne_nil h
      have ha := hhead (List.cons_ne_nil a p')
      simp only [List.head_cons] at ha
      simp [List.takeWhile_cons, ha]
    · intro hd
      simpa using List.head_dropWhile_not (!isSpace ·) p hd

/-- `Run`'s four loops take exactly the first two words of the header, each empty if absent. -/
theorem accessWords_eq_wordRuns (s : List UInt8) :
    accessWords s = ((wordRuns s).getD 0 [], (wordRuns s).getD 1 []) := by
  unfold accessWords
  rw [wordRuns_scan s]
  split
  · rename_i h
    simp [h]
  · rw [wordRuns_scan ((s.dropWhile isSpace).dropWhile (!isSpace ·))]
    split
    · rename_i h
      simp [h]
    · rfl

example : accessWords [32, 116, 9, 9, 107, 200, 32, 120] = ([116], [107, 200]) := by decide

/-- `Replicator::Run` parses the access header exactly: its token and key are the first and the
second maximal run of bytes above `0x20`. When exactly one of them is empty, `Run` answers the
op at once with `-EINVAL` and "malformed chunk access header value", bumps the replication or
the recovery error count and nothing else, and creates no replicator. Otherwise it sets no such
message and hands both words, as they are, to `FindServer`, `RemoteSyncSM::Create` or
`RSReplicatorImpl::Create`. -/
theorem run_access_header (maxReadSize quota ioBufferSize : Int) (renv : RunEnv)
    (op : ReplicateChunkOp) :
    accessWords op.chunkServerAccess =
        ((wordRuns op.chunkServerAccess).getD 0 [], (wordRuns op.chunkServerAccess).getD 1 []) ∧
      (((wordRuns op.chunkServerAccess).getD 0 [] = [] ∧
          (wordRuns op.chunkServerAccess).getD 1 [] ≠ []) ∨
        ((wordRuns op.chunkServerAccess).getD 0 [] ≠ [] ∧
          (wordRuns op.chunkServerAccess).getD 1 [] = []) →
        replicatorRun maxReadSize quota ioBufferSize renv op =
          ⟨.reject (-EINVAL), some "malformed chunk access header value",
            if op.locationValid then { replicationErrorCount := 1 }
            else { recoveryErrorCount := 1 }, none⟩) ∧
      (¬(((wordRuns op.chunkServerAccess).getD 0 [] = [] ∧
          (wordRuns op.chunkServerAccess).getD 1 [] ≠ []) ∨
        ((wordRuns op.chunkServerAccess).getD 0 [] ≠ [] ∧
          (wordRuns op.chunkServerAccess).getD 1 [] = [])) →
        (replicatorRun maxReadSize quota ioBufferSize renv op).statusMsg = none ∧
        ∀ u ∈ (replicatorRun maxReadSize quota ioBufferSize renv op).access,
          u.words = ((wordRuns op.chunkServerAccess).getD 0 [],
            (wordRuns op.chunkServerAccess).getD 1 [])) := by
  have hw := accessWords_eq_wordRuns op.chunkServerAccess
  generalize (wordRuns op.chunkServerAccess).getD 0 [] = t at hw ⊢
  generalize (wordRuns op.chunkServerAccess).getD 1 [] = k at hw ⊢
  refine ⟨hw, fun h => ?_, fun h => ?_⟩ <;> unfold replicatorRun <;> rw [hw] <;> dsimp only
  · rw [if_pos (by rcases h with ⟨h1, h2⟩ | ⟨h1, h2⟩ <;> simp [h1, h2, List.length_pos])]
  · have hb : (decide (0 < k.length) != decide (0 < t.length)) = false := by
      by_cases ht : t = [] <;> by_cases hk : k = [] <;> simp_all [List.length_pos]
    rw [hb, if_neg Bool.false_ne_true]
    split_ifs <;> simp [AccessUse.words]

end QfsReplicator
