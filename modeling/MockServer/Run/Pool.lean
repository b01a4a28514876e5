/-
  MockServer.Run.Pool — a script, run for many accounts.

  Workers take accounts from a queue until it is empty.  There are as
  many as the script asks for, but no more than accounts and no more
  than the pool allows.  A worker that meets an account of which nothing
  comes stops; what it leaves is for the others.
-/
import MockServer.Run.Pass

namespace MockServer.Run

variable {σ : Type}

/-- How many workers serve a number of accounts. -/
def workerCount (cap concurrency accounts : Nat) : Nat :=
  min (min (max concurrency 1) (max accounts 1)) (max cap 1)

/-- Runs accounts one after another with a number of workers, and collects what comes of them. -/
def runQueue (w : Http.World σ) (interval : Duration) (script : Script) :
    (workers : Nat) → List Account → σ → List AccountResult × σ
  | _, [], s => ([], s)
  | 0, _ :: _, s => ([], s)
  | workers + 1, a :: rest, s =>
    match runAccount w interval script a s with
    -- the account is lost with its worker
    | (none, s) => runQueue w interval script workers rest s
    | (some result, s) =>
      let (results, s) := runQueue w interval script (workers + 1) rest s
      (result :: results, s)

/-- The mean of the times of some accounts, if they are fewer than `2^32`: they are divided by a
number of 32 bits. -/
def averageTime (results : List AccountResult) : Duration :=
  ⟨results.foldl (fun total r => total + r.totalTime.nanos) 0 /
    (UInt32.ofNat results.length).toNat⟩

/-- The result of a script for a number of accounts, of which some results came in. -/
def RunResult.collect (scriptName : String) (accounts : Nat) (took : Duration)
    (results : List AccountResult) : RunResult :=
  { scenarioName := scriptName
    totalAccounts := accounts
    successes := results.countP AccountResult.isSuccess
    failures := results.countP fun r => !r.isSuccess
    totalDuration := took
    averageDuration := averageTime results
    accounts := results }

def runAll (w : Http.World σ) (interval : Duration) (cap : Nat) (script : Script)
    (accounts : List Account) (s : σ) : RunResult × σ :=
  if accounts.isEmpty then (.empty script.name, s)
  else
    let workers := workerCount cap script.concurrency accounts.length
    let (results, after) := runQueue w interval script workers accounts s
    let took : Duration := ⟨(w.now after).nanos - (w.now s).nanos⟩
    (.collect script.name accounts.length took results, after)

end MockServer.Run
