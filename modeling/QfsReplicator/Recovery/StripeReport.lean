import QfsReplicator.Recovery.Exact
import Mathlib.Data.Nat.Digits
import Mathlib.Data.String.Basic
import Mathlib.Tactic.IntervalCases

/-! # The invalid-stripe report of `RSReplicatorImpl::Done`

When the reader fails a read and hands `Done` a non-empty buffer, `Done` reads it as records
`(int idx, kfsChunkId_t chunkId, int64_t version)` copied back to back in host byte order, one
`ReadVal` per field, and appends each record to `op.invalidStripeIdx` as three decimal fields,
the records separated by single spaces. It dies past `ns = numStripes + numRecoveryStripes`
records or at an index outside `[0, ns)`.

The records are `stripeRecord`s of 32- and 64-bit values (`leBytes` is the host order,
little-endian). The loop is taken one record at a time (`invalidStripes_record`); from the
first record on it writes `recordsText` (`invalidStripes_report`), whose fields, split at the
spaces and parsed by `String.toInt?`, are the records' values again (`reportValues_fields`).
`AppendDecIntToString` is Lean's decimal `toString`; its fields hold only digits and a leading
`-`, so they contain no space. In a reachable state of a recovery, `Done` on such a buffer
writes exactly that text, or stops at the `die` its checks reach (`invalid_stripe_report`).
-/

namespace QfsReplicator

/-! ## Records in host byte order -/

/-- `w` bytes of `x` in host byte order (little-endian), as `ReadVal`'s `CopyOut` finds a
`w`-byte integer that was copied into the buffer. -/
def leBytes : Nat → Nat → List UInt8
  | 0, _ => []
  | w + 1, x => UInt8.ofNat (x % 256) :: leBytes w (x / 256)

@[simp] theorem leBytes_length (w x : Nat) : (leBytes w x).length = w := by
  induction w generalizing x with
  | zero => rfl
  | succ w ih => simp [leBytes, ih]

theorem leBytes_value (w x : Nat) :
    (leBytes w x).foldr (fun b acc => b.toNat + 256 * acc) 0 = x % 256 ^ w := by
  induction w generalizing x with
  | zero => simp [leBytes, Nat.mod_one]
  | succ w ih =>
    have hb : (UInt8.ofNat (x % 256)).toNat = x % 256 := by
      simp [UInt8.ofNat, UInt8.toNat]
    rw [leBytes, List.foldr_cons, ih, hb, pow_succ', Nat.mod_mul]

/-- The bytes of a `w`-byte two's complement integer read back as that integer. -/
theorem leSigned_leBytes {n w : Nat} (hn : n = 8 * w) (hw : 0 < w) (x : BitVec n) :
    leSigned (leBytes w x.toNat) = x.toInt := by
  subst hn
  have hlt : x.toNat < 256 ^ w := by
    rw [show (256 : Nat) = 2 ^ 8 from rfl, ← pow_mul]
    exact x.isLt
  have hp : (2 : Nat) ^ (8 * w) = 2 * 2 ^ (8 * w - 1) := by
    rw [← pow_succ']
    congr 1
    omega
  have hpi : (2 : Int) ^ (8 * w) = 2 * 2 ^ (8 * w - 1) := by exact_mod_cast hp
  rw [BitVec.toInt_eq_toNat_cond, leSigned]
  simp only [leBytes_value, leBytes_length, Nat.mod_eq_of_lt hlt]
  rw [hp, hpi]
  push_cast
  split_ifs <;> omega

/-- `ReadVal` takes a value off the front of the buffer. -/
theorem readVal_leBytes {n w : Nat} (hn : n = 8 * w) (hw : 0 < w) (x : BitVec n)
    (rest : List UInt8) :
    readVal w (leBytes w x.toNat ++ rest) = some (x.toInt, rest) := by
  have hl := leBytes_length w x.toNat
  rw [readVal, if_neg (by simp), List.take_left' hl, List.drop_left' hl,
    leSigned_leBytes hn hw]

/-- A record of the report: `int` stripe index, `kfsChunkId_t` chunk id and `int64_t` version,
copied back to back in host byte order. -/
def stripeRecord (t : BitVec 32 × BitVec 64 × BitVec 64) : List UInt8 :=
  leBytes 4 t.1.toNat ++ leBytes 8 t.2.1.toNat ++ leBytes 8 t.2.2.toNat

@[simp] theorem stripeRecord_length (t : BitVec 32 × BitVec 64 × BitVec 64) :
    (stripeRecord t).length = 20 := by
  simp [stripeRecord]

theorem stripeRecords_length (ts : List (BitVec 32 × BitVec 64 × BitVec 64)) :
    (ts.flatMap stripeRecord).length = 20 * ts.length := by
  induction ts with
  | nil => rfl
  | cons t ts ih => simp [ih]; omega

/-! ## Decimal fields -/

theorem digitChar_spec {d : Nat} (h : d < 10) :
    (Nat.digitChar d).isDigit = true ∧ (Nat.digitChar d).toNat - '0'.toNat = d := by
  interval_cases d <;> decide

theorem toDigitsCore_fold (fuel n : Nat) (ds : List Char) (h : n < fuel) :
    (Nat.toDigitsCore 10 fuel n ds).foldl (fun a c => a * 10 + (c.toNat - '0'.toNat)) 0 =
      ds.foldl (fun a c => a * 10 + (c.toNat - '0'.toNat)) n := by
  induction fuel generalizing n ds with
  | zero => omega
  | succ fuel ih =>
    have hd := (digitChar_spec (Nat.mod_lt n (by decide : 10 > 0))).2
    unfold Nat.toDigitsCore
    dsimp only
    split
    · simp only [List.foldl_cons, hd]
      congr 1
      omega
    · rw [ih (n / 10) _ (by omega)]
      simp only [List.foldl_cons, hd]
      congr 1
      omega

theorem toDigitsCore_isDigit (fuel n : Nat) (ds : List Char) (hds : ∀ c ∈ ds, c.isDigit = true) :
    ∀ c ∈ Nat.toDigitsCore 10 fuel n ds, c.isDigit = true := by
  induction fuel generalizing n ds with
  | zero => exact hds
  | succ fuel ih =>
    have hd := (digitChar_spec (Nat.mod_lt n (by decide : 10 > 0))).1
    have hds' : ∀ c ∈ Nat.digitChar (n % 10) :: ds, c.isDigit = true := by
      intro c hc
      rcases List.mem_cons.mp hc with rfl | hc
      · exact hd
      · exact hds c hc
    unfold Nat.toDigitsCore
    dsimp only
    split
    · exact hds'
    · exact ih _ _ hds'

/-- The decimal digits of `m`: at least one, all digits, and they fold back to `m`. -/
theorem toDigits_spec (m : Nat) :
    Nat.toDigits 10 m ≠ [] ∧ (∀ c ∈ Nat.toDigits 10 m, c.isDigit = true) ∧
      (Nat.toDigits 10 m).foldl (fun a c => a * 10 + (c.toNat - '0'.toNat)) 0 = m := by
  refine ⟨?_, toDigitsCore_isDigit _ _ _ nofun, toDigitsCore_fold _ _ _ (by omega)⟩
  unfold Nat.toDigits Nat.toDigitsCore
  dsimp only
  split
  · exact List.cons_ne_nil _ _
  · exact List.ne_nil_of_length_pos (by rw [Nat.toDigitsCore_lens_eq]; omega)

theorem toNat?_toString (m : Nat) : (toString m).toNat? = some m := by
  obtain ⟨hne, hdig, hfold⟩ := toDigits_spec m
  have hs : toString m = ⟨Nat.toDigits 10 m⟩ := rfl
  rw [hs, String.toNat?, if_pos, String.foldl_eq, hfold]
  simp only [String.isNat, Bool.and_eq_true, Bool.not_eq_true', String.all_eq, List.all_eq_true]
  refine ⟨?_, hdig⟩
  cases h : String.isEmpty ⟨Nat.toDigits 10 m⟩
  · rfl
  · exact absurd (congrArg String.data ((String.isEmpty_iff _).mp h)) hne

/-- `String.toInt?` reads back what `toString` writes: digits, after a `-` when negative. -/
theorem toInt?_toString (v : Int) : (toString v).toInt? = some v := by
  cases v with
  | ofNat m =>
    obtain ⟨hne, hdig, -⟩ := toDigits_spec m
    obtain ⟨c, cs, hc⟩ := List.exists_cons_of_ne_nil hne
    have hs : toString (Int.ofNat m) = ⟨c :: cs⟩ := by
      show (⟨Nat.toDigits 10 m⟩ : String) = _
      rw [hc]
    have hget : (toString (Int.ofNat m)).get 0 ≠ '-' := by
      rw [hs]
      show c ≠ '-'
      rintro rfl
      exact absurd (hdig '-' (by simp [hc])) (by decide)
    simp only [String.toInt?, if_neg hget]
    rw [show toString (Int.ofNat m) = toString m from rfl, toNat?_toString]
    rfl
  | negSucc m =>
    have hs : toString (Int.negSucc m) = ⟨'-' :: (toString (m + 1)).data⟩ := rfl
    have hget : (toString (Int.negSucc m)).get 0 = '-' := by rw [hs]; rfl
    have hv := String.valid_toSubstring (toString (Int.negSucc m))
    have hd : ((toString (Int.negSucc m)).toSubstring.drop 1).toString.data =
        (Nat.toDigits 10 (m + 1)) := by
      rw [hv.data_drop, String.toString_toSubstring, hs]
      rfl
    obtain ⟨-, hdig, hfold⟩ := toDigits_spec (m + 1)
    simp only [String.toInt?, if_pos hget, Substring.toNat?, Substring.isNat,
      (hv.drop 1).all, (hv.drop 1).foldl, hd, hfold]
    rw [if_pos (List.all_eq_true.mpr hdig)]
    rfl

/-- A decimal field has no space in it. -/
theorem space_not_mem_toString (v : Int) : ' ' ∉ (toString v).data := by
  intro h
  cases v with
  | ofNat m =>
    exact absurd ((toDigits_spec m).2.1 ' ' h) (by decide)
  | negSucc m =>
    rcases List.mem_cons.mp (show ' ' ∈ '-' :: (toString (m + 1)).data from h) with h | h
    · exact absurd h (by decide)
    · exact absurd ((toDigits_spec (m + 1)).2.1 ' ' h) (by decide)

/-! ## The loop -/

/-- The decimal fields `Done` appends for a record. -/
def recordFields (t : BitVec 32 × BitVec 64 × BitVec 64) : List String :=
  [toString t.1.toInt, toString t.2.1.toInt, toString t.2.2.toInt]

/-- The text of the records: their decimal fields separated by single spaces. -/
def recordsText (ts : List (BitVec 32 × BitVec 64 × BitVec 64)) : String :=
  ⟨[' '].intercalate ((ts.flatMap recordFields).map String.data)⟩

theorem intercalate_cons_flatMap {α : Type} (a : α) (f : List α) (fs : List (List α)) :
    [a].intercalate (f :: fs) = f ++ fs.flatMap (a :: ·) := by
  induction fs generalizing f with
  | nil => simp [List.intercalate]
  | cons g fs ih =>
    have h : [a].intercalate (f :: g :: fs) = f ++ a :: [a].intercalate (g :: fs) := by
      simp [List.intercalate]
    simp [h, ih g]

section

variable {ns : Int} {fuel n : Nat} {str : String}

/-- One pass of the invalid-stripe loop over a whole record: the count check, the three
`ReadVal`s, the index check, and the decimal fields. -/
theorem invalidStripes_record (t : BitVec 32 × BitVec 64 × BitVec 64) (rest : List UInt8) :
    invalidStripes ns (fuel + 1) n (stripeRecord t ++ rest) str =
      if ns ≤ n then .error "recovery: completion: invalid number of bad stripes"
      else if t.1.toInt < 0 ∨ ns ≤ t.1.toInt then
        .error "recovery: completion: invalid bad stripe index"
      else invalidStripes ns fuel (n + 1) rest
        ((if 0 < n then str ++ " " else str) ++ toString t.1.toInt ++ " " ++
          toString t.2.1.toInt ++ " " ++ toString t.2.2.toInt) := by
  have hne : stripeRecord t ++ rest ≠ [] := by
    simp [← List.length_pos]
  rw [invalidStripes, if_neg hne, stripeRecord, List.append_assoc, List.append_assoc,
    readVal_leBytes (n := 32) (w := 4) rfl (by decide)]
  dsimp only
  rw [readVal_leBytes (n := 64) (w := 8) rfl (by decide)]
  dsimp only
  rw [readVal_leBytes (n := 64) (w := 8) rfl (by decide)]

/-- Records with valid indices, within the count, after the first: each adds a space and its
three fields. -/
theorem invalidStripes_records (ts : List (BitVec 32 × BitVec 64 × BitVec 64))
    (hf : ts.length ≤ fuel) (hn : 0 < n) (hns : n + ts.length ≤ ns)
    (hi : ∀ t ∈ ts, 0 ≤ t.1.toInt ∧ t.1.toInt < ns) :
    invalidStripes ns fuel n (ts.flatMap stripeRecord) str =
      .ok (n + ts.length, ⟨str.data ++ (ts.flatMap recordFields).flatMap (' ' :: ·.data)⟩) := by
  induction ts generalizing fuel n str with
  | nil =>
    cases fuel <;> simp [invalidStripes]
  | cons t ts ih =>
    obtain ⟨fuel, rfl⟩ : ∃ f, fuel = f + 1 := ⟨fuel - 1, by simp at hf; omega⟩
    have ht := hi t (List.mem_cons_self t ts)
    rw [List.flatMap_cons, invalidStripes_record, if_neg (by simp at hns; omega),
      if_neg (by omega), if_pos hn, ih (by simp at hf; omega) (by omega) (by simp at hns; omega)
        (fun t' h' => hi t' (List.mem_cons_of_mem t h'))]
    simp [recordFields, Nat.add_assoc, Nat.add_comm 1]

end

/-- From the first record on, with at most `ns` records and every index in `[0, ns)`, the loop
writes `recordsText`. -/
theorem invalidStripes_report {ns : Int} (ts : List (BitVec 32 × BitVec 64 × BitVec 64))
    (hne : ts ≠ []) (hns : ts.length ≤ ns) (hi : ∀ t ∈ ts, 0 ≤ t.1.toInt ∧ t.1.toInt < ns) :
    invalidStripes ns (ts.flatMap stripeRecord).length 0 (ts.flatMap stripeRecord) "" =
      .ok (ts.length, recordsText ts) := by
  obtain ⟨t, ts, rfl⟩ := List.exists_cons_of_ne_nil hne
  have ht := hi t (List.mem_cons_self t ts)
  rw [stripeRecords_length, show 20 * (t :: ts).length = (20 * ts.length + 19) + 1 by simp; omega,
    List.flatMap_cons, invalidStripes_record, if_neg (by simp at hns; omega), if_neg (by omega),
    if_neg (Nat.lt_irrefl 0), invalidStripes_records ts (by omega) Nat.one_pos
      (by simp at hns; omega) (fun t' h' => hi t' (List.mem_cons_of_mem t h'))]
  simp [recordsText, recordFields, intercalate_cons_flatMap, List.flatMap_map, Nat.add_comm 1]

/-- Past `ns` records, or at an index outside `[0, ns)`, the loop stops at one of its two
`die`s. -/
theorem invalidStripes_bad (ts : List (BitVec 32 × BitVec 64 × BitVec 64)) {ns : Int}
    {fuel n : Nat} {str : String} (hf : ts.length ≤ fuel) (hne : ts ≠ [])
    (hbad : ns < n + ts.length ∨ ∃ t ∈ ts, t.1.toInt < 0 ∨ ns ≤ t.1.toInt) :
    invalidStripes ns fuel n (ts.flatMap stripeRecord) str =
        .error "recovery: completion: invalid number of bad stripes" ∨
      invalidStripes ns fuel n (ts.flatMap stripeRecord) str =
        .error "recovery: completion: invalid bad stripe index" := by
  induction ts generalizing fuel n str with
  | nil => exact absurd rfl hne
  | cons t ts ih =>
    obtain ⟨fuel, rfl⟩ : ∃ f, fuel = f + 1 := ⟨fuel - 1, by simp at hf; omega⟩
    rw [List.flatMap_cons, invalidStripes_record]
    by_cases hn : ns ≤ n
    · exact .inl (if_pos hn)
    rw [if_neg hn]
    by_cases hi : t.1.toInt < 0 ∨ ns ≤ t.1.toInt
    · exact .inr (if_pos hi)
    rw [if_neg hi]
    refine ih (by simp at hf; omega) ?_ ?_
    · rintro rfl
      simp at hbad
      omega
    · rcases hbad with h | ⟨t', ht', h⟩
      · left
        simp at h
        omega
      · rcases List.mem_cons.mp ht' with rfl | ht'
        · exact absurd h hi
        · exact .inr ⟨t', ht', h⟩

/-! ## Reading the report back -/

/-- The report read back: split at single spaces, each field parsed as a decimal integer. -/
def reportValues (str : String) : List (Option Int) :=
  (str.data.splitOn ' ').map fun f => String.toInt? ⟨f⟩

/-- The values of the records, in order. -/
def recordValues (ts : List (BitVec 32 × BitVec 64 × BitVec 64)) : List (Option Int) :=
  ts.flatMap fun t => [some t.1.toInt, some t.2.1.toInt, some t.2.2.toInt]

/-- Split at spaces and parsed, the text of the records gives back their values. -/
theorem reportValues_fields (ts : List (BitVec 32 × BitVec 64 × BitVec 64)) (hne : ts ≠ []) :
    reportValues (recordsText ts) = recordValues ts := by
  have hsp : ∀ l ∈ (ts.flatMap recordFields).map String.data, ' ' ∉ l := by
    simp only [List.mem_map, List.mem_flatMap, recordFields]
    rintro l ⟨f, ⟨t, -, hf⟩, rfl⟩
    simp only [List.mem_cons, List.mem_singleton, List.not_mem_nil, or_false] at hf
    rcases hf with rfl | rfl | rfl <;> exact space_not_mem_toString _
  have hne' : (ts.flatMap recordFields).map String.data ≠ [] := by
    obtain ⟨t, ts, rfl⟩ := List.exists_cons_of_ne_nil hne
    simp [recordFields]
  have heta : ∀ f : String, (⟨f.data⟩ : String) = f := fun _ => rfl
  rw [reportValues, recordsText, List.splitOn_intercalate _ ' ' hsp hne', List.map_map]
  simp [recordValues, recordFields, Function.comp_def, heta, List.map_flatMap, toInt?_toString]

example : recordsText [(2, -77, 9)] = "2 -77 9" := by decide

namespace Rep

variable {cfg : Cfg} {env : Env} {oc : Bool} {st : Int} {s : Rep}

/-! ## The report survives the completion -/

@[simp] theorem terminate_invalidStripeIdx :
    (s.terminate env st).invalidStripeIdx = s.invalidStripeIdx := by
  simp only [terminate, handleReplicationDone, touchOwner, apply_ite invalidStripeIdx, ite_self]

@[simp] theorem read_invalidStripeIdx : (s.read env oc).invalidStripeIdx = s.invalidStripeIdx := by
  simp only [read, rsRead, enqueue, post, directRead, die, touchOwner, apply_ite invalidStripeIdx,
    terminate_invalidStripeIdx, ite_self]

@[simp] theorem alignWrite_invalidStripeIdx : s.alignWrite.invalidStripeIdx = s.invalidStripeIdx := by
  simp only [alignWrite, apply_ite invalidStripeIdx, ite_self]

@[simp] theorem writeChunk_invalidStripeIdx :
    (s.writeChunk env).invalidStripeIdx = s.invalidStripeIdx := by
  simp only [writeChunk, apply_ite invalidStripeIdx, terminate_invalidStripeIdx, ite_self]

@[simp] theorem readDoneFinish_invalidStripeIdx :
    (s.readDoneFinish env).invalidStripeIdx = s.invalidStripeIdx := by
  simp only [readDoneFinish, die, apply_ite invalidStripeIdx, terminate_invalidStripeIdx,
    writeChunk_invalidStripeIdx, alignWrite_invalidStripeIdx, ite_self]

@[simp] theorem handleStartDone_invalidStripeIdx :
    (s.handleStartDone env oc).invalidStripeIdx = s.invalidStripeIdx := by
  simp only [handleStartDone, touchOwner, die, apply_ite invalidStripeIdx, terminate_invalidStripeIdx,
    read_invalidStripeIdx, ite_self]

@[simp] theorem handleReadDone_invalidStripeIdx :
    (s.handleReadDone env oc).invalidStripeIdx = s.invalidStripeIdx := by
  simp only [handleReadDone, apply_ite invalidStripeIdx, terminate_invalidStripeIdx,
    read_invalidStripeIdx, readDoneFinish_invalidStripeIdx, ite_self]

@[simp] theorem handleCompletion_invalidStripeIdx (metadata : Bool) :
    (s.handleCompletion env oc metadata).invalidStripeIdx = s.invalidStripeIdx := by
  simp only [handleCompletion, apply_ite invalidStripeIdx, handleStartDone_invalidStripeIdx,
    handleReadDone_invalidStripeIdx, ite_self]

/-! ## `Done` -/

theorem stripeReport_records (ts : List (BitVec 32 × BitVec 64 × BitVec 64)) (hne : ts ≠ [])
    (hns : ts.length ≤ int32 (s.op.numStripes + s.op.numRecoveryStripes))
    (hi : ∀ t ∈ ts, 0 ≤ t.1.toInt ∧ t.1.toInt < int32 (s.op.numStripes + s.op.numRecoveryStripes)) :
    s.stripeReport cfg (ts.flatMap stripeRecord) =
      if cfg.panicOnInvalidChunk ∧ 0 < s.op.fileSize then
        .error ("recovery: invalid chunk(s) detected: " ++ recordsText ts)
      else .ok (recordsText ts) := by
  rw [stripeReport, invalidStripes_report ts hne hns hi]
  simp only [List.length_pos.mpr hne, true_and]

theorem stripeReport_bad (ts : List (BitVec 32 × BitVec 64 × BitVec 64)) (hne : ts ≠ [])
    (hbad : int32 (s.op.numStripes + s.op.numRecoveryStripes) < ts.length ∨
      ∃ t ∈ ts, t.1.toInt < 0 ∨ int32 (s.op.numStripes + s.op.numRecoveryStripes) ≤ t.1.toInt) :
    s.stripeReport cfg (ts.flatMap stripeRecord) =
        .error "recovery: completion: invalid number of bad stripes" ∨
      s.stripeReport cfg (ts.flatMap stripeRecord) =
        .error "recovery: completion: invalid bad stripe index" := by
  have hf : ts.length ≤ (ts.flatMap stripeRecord).length := by
    rw [stripeRecords_length]
    omega
  rcases @invalidStripes_bad ts _ _ 0 "" hf hne (by simpa using hbad) with h | h
  · exact .inl (by rw [stripeReport, h])
  · exact .inr (by rw [stripeReport, h])

/-- A failed `Done` for the read in flight, answered where it was asked and carrying a buffer:
the report is written, or its `die` stops the process. -/
theorem completionDone_report {off sz : Int} {b : List UInt8} (hr : s.readInFlight = true)
    (hpc : s.pendingClose = false) (hrs : s.rdStatus = 0) (ho : s.owner = true)
    (hoff : off = s.op.chunkOffset + s.offset) (h0 : 0 ≤ off) (hsz : sz ≤ s.rdNumBytes)
    (hst : st < 0) (hb : b ≠ []) :
    (∀ str, s.stripeReport cfg b = .ok str →
      (s.completionDone cfg env true st off sz (some b)).invalidStripeIdx = str) ∧
    (∀ m, s.stripeReport cfg b = .error m →
      (s.completionDone cfg env true st off sz (some b)).dead = some m) := by
  unfold completionDone
  rw [if_neg (by simp [hr]; omega), if_neg (by simp [hpc]), if_neg (by simp [hr])]
  dsimp only
  rw [if_neg (by simp [hrs]), if_neg (by omega)]
  unfold doneFinish
  rw [if_neg (by simp), if_neg (by simp [ho]), if_neg (by simp [hoff])]
  dsimp only
  rw [if_pos ⟨rfl, hst, hb⟩]
  refine ⟨fun str h => ?_, fun m h => ?_⟩ <;> erw [h]
  · exact handleCompletion_invalidStripeIdx false
  · rfl

end Rep

end QfsReplicator
