import QfsReplicator.Basic

/-! # The entry of `sslfiltertest`

`main` returns `SslFilterTest::Run`, which initialises the SSL library, runs the test, and
cleans up. The test is meant to be `RunSelf`, but `theTest.Run(inArgsCount, inArgsPtr)` names
the static `Run` itself: every level initialises the library once more and calls `Run` again. So
the tool never exits with 0: it fails at the first level whose `SslFilter::Initialize` fails,
and runs out of stack if none does (`sslFilterTestRun_fails`).

`RunSelf`, never reached from `main`, is meant to read `-c <file>` (load a properties file at
once) and `-D key=value` (add the value and a newline to a text loaded after the loop), as its
usage text says. But its loop has no increment: an option's `++i` moves `i` onto the option's
value, and the next round reads that value as an argument again, so the value must itself be
`-c` or `-D`, and the last argument is always an option with nothing after it. So the loop gets
through no argument list but the empty one: any other ends in the usage or in a properties file
that does not load (`scanArgs_iff`), and `RunSelf` exits with 0 exactly when it has no
arguments and the logger starts; given arguments whose files all load, it prints the usage
(`runSelf_ok_iff`).
-/

namespace QfsReplicator

/-- How the argument loop of `RunSelf` ends: the usage, a file that did not load, or past the
last argument with the files loaded and `thePropsStr`. -/
inductive ArgScan
  | usage
  | fileError (file : String)
  | ok (files : List String) (props : String)
  deriving DecidableEq, Repr

/-- The argument loop of `SslFilterTest::RunSelf` from `inArgsPtr[i]` on, with the files loaded
so far and `thePropsStr`; `loadOk f` is whether `loadProperties` reads file `f`. The loop has no
increment of its own: an option's `++i` moves `i` onto its value, where the next round starts. -/
def scanArgs (loadOk : String → Bool) : List String → List String → String → ArgScan
  | [], files, props => .ok files props
  | a :: rest, files, props =>
    if a = "-c" then
      match rest with
      | [] => .usage
      | f :: _ => if loadOk f then scanArgs loadOk rest (files ++ [f]) props else .fileError f
    else if a = "-D" then
      match rest with
      | [] => .usage
      | kv :: _ => scanArgs loadOk rest files (props ++ kv ++ "\n")
    else .usage

/-- What `RunSelf` needs from outside: whether `loadProperties` reads a file or the `-D` text,
and whether `MsgLogger::Init` gives a logger. -/
structure ArgsEnv where
  loadFile : String → Bool
  loadText : String → Bool
  logger : Bool

/-- `SslFilterTest::Usage`. -/
def usageText (name : String) : String :=
  "Usage " ++ name ++ ":\n" ++ " -c <config file name>\n" ++ " -D config-key=config-value\n"

/-- `SslFilterTest::RunSelf` for `argv[0] = name` and the arguments after it: the exit status and
what it writes to `cerr`. -/
def runSelf (env : ArgsEnv) (name : String) (args : List String) : Nat × String :=
  match scanArgs env.loadFile args [] "" with
  | .usage => (1, usageText name)
  | .fileError f => (1, "error reading properties file: " ++ f ++ "\n")
  | .ok _ props =>
    if props ≠ "" ∧ env.loadText props = false then (1, "error parsing arguments\n")
    else if env.logger = false then (1, "messsage logger initialization failure\n")
    else (0, "")

section

variable {loadOk : String → Bool}

/-- From any argument on, the loop ends in the usage or at an argument that does not load as a
file: it never gets past the last argument. -/
theorem scanArgs_cons (a : String) (rest files : List String) (props : String) :
    scanArgs loadOk (a :: rest) files props = .usage ∨
      ∃ f ∈ rest, loadOk f = false ∧ scanArgs loadOk (a :: rest) files props = .fileError f := by
  induction rest generalizing a files props with
  | nil =>
    left
    unfold scanArgs
    split_ifs <;> rfl
  | cons b rest ih =>
    have lift {fs : List String} {ps : String}
        (h : scanArgs loadOk (b :: rest) fs ps = .usage ∨
          ∃ f ∈ rest, loadOk f = false ∧ scanArgs loadOk (b :: rest) fs ps = .fileError f) :
        scanArgs loadOk (b :: rest) fs ps = .usage ∨
          ∃ f ∈ b :: rest, loadOk f = false ∧ scanArgs loadOk (b :: rest) fs ps = .fileError f :=
      h.imp_right fun ⟨f, hf, hfl, h⟩ => ⟨f, List.mem_cons_of_mem b hf, hfl, h⟩
    rw [scanArgs]
    by_cases hc : a = "-c"
    · rw [if_pos hc]
      by_cases hl : loadOk b = true
      · rw [if_pos hl]
        exact lift (ih b _ _)
      · rw [if_neg hl]
        exact .inr ⟨b, List.mem_cons_self b rest, by simpa using hl, rfl⟩
    · rw [if_neg hc]
      by_cases hd : a = "-D"
      · rw [if_pos hd]
        exact lift (ih b _ _)
      · rw [if_neg hd]
        exact .inl rfl

/-- `RunSelf`'s loop gets through the empty argument list only, with no file and no `-D` text;
on any other it prints the usage or stops at an argument that does not load as a file. -/
theorem scanArgs_iff {args files : List String} {props : String} :
    (scanArgs loadOk args [] "" = .ok files props ↔ args = [] ∧ files = [] ∧ props = "") ∧
      (args ≠ [] → scanArgs loadOk args [] "" = .usage ∨
        ∃ f ∈ args, loadOk f = false ∧ scanArgs loadOk args [] "" = .fileError f) := by
  cases args with
  | nil => exact ⟨by simp [scanArgs, eq_comm], fun h => absurd rfl h⟩
  | cons a rest =>
    have hc := @scanArgs_cons loadOk a rest [] ""
    refine ⟨⟨fun h => ?_, fun h => nomatch h.1⟩, fun _ => ?_⟩
    · rcases hc with hc | ⟨_, -, -, hc⟩ <;> rw [hc] at h <;> cases h
    · rcases hc with hc | ⟨f, hf, hfl, hc⟩
      · exact .inl hc
      · exact .inr ⟨f, List.mem_cons_of_mem a hf, hfl, hc⟩

/-- The usage's own example, `-c` with a file and `-D` with a setting, is refused: the loop
reads the file name as the next option. -/
example : scanArgs (fun _ => true) ["-c", "a.cfg", "-D", "k=v"] [] "" = .usage := by decide

/-- A chain of options, each the value of the one before it: the second `-c` takes `-D` for its
file, which does not load. -/
example : scanArgs (fun f => f != "-D") ["-c", "-c", "-D"] [] "" = .fileError "-D" := by decide

theorem scanArgs_iff_bad_file :
    ["-c", "-D", "k=v"] ≠ [] ∧
      ((scanArgs (fun f => f != "-D") ["-c", "-D", "k=v"] [] "" = .ok [] "" ↔
          ["-c", "-D", "k=v"] = [] ∧ ([] : List String) = [] ∧ "" = "") ∧
        (["-c", "-D", "k=v"] ≠ [] →
          scanArgs (fun f => f != "-D") ["-c", "-D", "k=v"] [] "" = .usage ∨
            ∃ f ∈ ["-c", "-D", "k=v"], (fun f => f != "-D") f = false ∧
              scanArgs (fun f => f != "-D") ["-c", "-D", "k=v"] [] "" = .fileError f)) :=
  ⟨by decide, scanArgs_iff⟩

end

/-- `RunSelf` exits with 0 exactly when it is given no arguments and the logger starts; given
arguments whose properties files all load, it prints the usage and exits with 1. -/
theorem runSelf_ok_iff {env : ArgsEnv} {name : String} {args : List String} :
    ((runSelf env name args).1 = 0 ↔ args = [] ∧ env.logger = true) ∧
      (args ≠ [] → (∀ f ∈ args, env.loadFile f = true) → runSelf env name args = (1, usageText name)) := by
  cases args with
  | nil =>
    refine ⟨?_, fun h => absurd rfl h⟩
    cases hg : env.logger <;> simp [runSelf, scanArgs, hg]
  | cons a rest =>
    have hc := @scanArgs_cons env.loadFile a rest [] ""
    refine ⟨?_, fun _ hl => ?_⟩
    · rcases hc with hc | ⟨_, -, -, hc⟩ <;> simp [runSelf, hc]
    · rcases hc with hc | ⟨f, hf, hfl, -⟩
      · simp [runSelf, hc]
      · rw [hl f (List.mem_cons_of_mem a hf)] at hfl
        cases hfl

theorem runSelf_ok_iff_usage :
    (["-D", "-D"] ≠ [] ∧ ∀ f ∈ ["-D", "-D"], (⟨fun _ => true, fun _ => true, true⟩ : ArgsEnv).loadFile f = true) ∧
      (((runSelf ⟨fun _ => true, fun _ => true, true⟩ "sslfiltertest" ["-D", "-D"]).1 = 0 ↔
          ["-D", "-D"] = [] ∧ (⟨fun _ => true, fun _ => true, true⟩ : ArgsEnv).logger = true) ∧
        (["-D", "-D"] ≠ [] → (∀ f ∈ ["-D", "-D"], (⟨fun _ => true, fun _ => true, true⟩ : ArgsEnv).loadFile f = true) →
          runSelf ⟨fun _ => true, fun _ => true, true⟩ "sslfiltertest" ["-D", "-D"] = (1, usageText "sslfiltertest"))) :=
  ⟨⟨by decide, fun _ _ => rfl⟩, runSelf_ok_iff⟩

/-- `SslFilterTest::Run` entered at nesting depth `d` with room for `fuel` more frames: its exit
status, or `none` once the stack runs out. `initFails d` and `cleanupFails d` are whether
`SslFilter::Initialize` and `SslFilter::Cleanup` fail at depth `d`. -/
def sslFilterTestRun (initFails cleanupFails : Nat → Bool) : Nat → Nat → Option Int
  | 0, _ => none
  | fuel + 1, d =>
    let ret := if initFails d then some 1 else sslFilterTestRun initFails cleanupFails fuel (d + 1)
    ret.map fun r => if cleanupFails d ∧ r = 0 then 1 else r

/-- Whatever the SSL library does, `sslfiltertest` never exits with 0: `Run` returns 1 if it
returns at all, and when `SslFilter::Initialize` never fails it recurses past any stack. -/
theorem sslFilterTestRun_fails (initFails cleanupFails : Nat → Bool) (fuel d : Nat) :
    (∀ r, sslFilterTestRun initFails cleanupFails fuel d = some r → r = 1) ∧
      ((∀ k, initFails k = false) → sslFilterTestRun initFails cleanupFails fuel d = none) := by
  induction fuel generalizing d with
  | zero => exact ⟨fun _ h => Option.noConfusion h, fun _ => rfl⟩
  | succ fuel ih =>
    obtain ⟨ih1, ih2⟩ := ih (d + 1)
    refine ⟨fun r h => ?_, fun hi => ?_⟩
    · unfold sslFilterTestRun at h
      obtain ⟨r', hr', rfl⟩ := Option.map_eq_some'.mp h
      have h1 : r' = 1 := by
        split at hr'
        · exact (Option.some.inj hr').symm
        · exact ih1 r' hr'
      simp [h1]
    · unfold sslFilterTestRun
      rw [if_neg (by simp [hi d]), ih2 hi]
      rfl

/-- The second `SslFilter::Initialize` fails, as for a library that is already initialised: the
tool exits with 1. -/
theorem sslFilterTestRun_fails_second_init :
    sslFilterTestRun (fun k => k == 1) (fun _ => false) 10 0 = some 1 ∧
      ((∀ r, sslFilterTestRun (fun k => k == 1) (fun _ => false) 10 0 = some r → r = 1) ∧
        ((∀ k, (fun k => k == 1) k = false) →
          sslFilterTestRun (fun k => k == 1) (fun _ => false) 10 0 = none)) :=
  ⟨rfl, sslFilterTestRun_fails _ _ 10 0⟩

end QfsReplicator
