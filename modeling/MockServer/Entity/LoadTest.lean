/-
  MockServer.Entity.LoadTest — the steps of a load test, and load tests
  kept in the store.
-/
import MockServer.Entity.Feature

namespace MockServer

/-- One HTTP call of a load test. -/
structure Step where
  name : String
  method : String
  /-- An absolute URL, or a whole `curl` command. -/
  path : String
  headers : Dict String
  body : String
  /-- Variables to set from the response, each with its source. -/
  saveVariables : Dict String
  /-- The status that counts as success; zero accepts any. -/
  expectStatus : UInt16
  waitAfterSeconds : UInt64
  retryForSeconds : UInt64
  /-- The most attempts within the retry window; zero sets no limit. -/
  maxRetryTimes : UInt32
  /-- The step is skipped when this condition is false. -/
  condition : String
  deriving DecidableEq, Repr, Inhabited

/-- A load test with its accounts. -/
structure LoadTest where
  id : Uuid
  name : String
  description : String
  concurrency : Nat
  /-- `username-password` pairs between commas. -/
  accounts : String
  steps : List Step
  isActive : Bool
  createdAt : Timestamp
  updatedAt : Timestamp
  deriving DecidableEq, Repr, Inhabited

namespace Document

def textTable? (d : Document) : Option (Dict String) := d.dictOf? Document.text?

end Document

namespace Step

def ofDocument? (d : Document) : Option Step := do
  let f ← d.fields?
    ["name", "method", "path", "headers", "body", "save_variables", "expect_status",
     "wait_after_seconds", "retry_for_seconds", "max_retry_times", "condition"]
  return {
    name := ← f.required "name" Document.text?
    method := ← f.text "method"
    path := ← f.required "path" Document.text?
    headers := ← f.optional "headers" .empty Document.textTable?
    body := ← f.text "body"
    saveVariables := ← f.optional "save_variables" .empty Document.textTable?
    expectStatus := ← f.optional "expect_status" 0 Document.uint16?
    waitAfterSeconds := ← f.optional "wait_after_seconds" 0 Document.uint64?
    retryForSeconds := ← f.optional "retry_for_seconds" 0 Document.uint64?
    maxRetryTimes := ← f.optional "max_retry_times" 0 Document.uint32?
    condition := ← f.text "condition" }

/-- Writes a step; fields that hold nothing are left out. -/
def toJson (x : Step) : Json :=
  .record [
    .always "name" (.str x.name),
    .always "method" (.str x.method),
    .always "path" (.str x.path),
    .omitWhen x.headers.isEmpty "headers" (.textTable x.headers),
    .omitWhen x.body.isEmpty "body" (.str x.body),
    .omitWhen x.saveVariables.isEmpty "save_variables" (.textTable x.saveVariables),
    .omitWhen (x.expectStatus == 0) "expect_status" (.nat x.expectStatus.toNat),
    .omitWhen (x.waitAfterSeconds == 0) "wait_after_seconds" (.nat x.waitAfterSeconds.toNat),
    .omitWhen (x.retryForSeconds == 0) "retry_for_seconds" (.nat x.retryForSeconds.toNat),
    .omitWhen (x.maxRetryTimes == 0) "max_retry_times" (.nat x.maxRetryTimes.toNat),
    .omitWhen x.condition.isEmpty "condition" (.str x.condition)]

end Step

namespace LoadTest

/-- A new active load test without accounts, one account at a time. -/
def new (stamp : Stamp) (name : String) (steps : List Step) : LoadTest :=
  ⟨stamp.id, name, "", 1, "", steps, true, stamp.now, stamp.now⟩

def ofDocument? (d : Document) : Option LoadTest := do
  let f ← d.fields?
    ["id", "name", "description", "concurrency", "accounts", "steps", "is_active", "created_at",
     "updated_at"]
  return {
    id := ← f.required "id" Document.uuid?
    name := ← f.required "name" Document.text?
    description := ← f.text "description"
    concurrency := ← f.optional "concurrency" 1 (Document.nat? UInt64.size)
    accounts := ← f.text "accounts"
    steps := ← f.optional "steps" [] (Document.listOf? Step.ofDocument?)
    isActive := ← f.optional "is_active" true Document.bool?
    createdAt := ← f.required "created_at" Document.timestamp?
    updatedAt := ← f.required "updated_at" Document.timestamp? }

def toJson (x : LoadTest) : Json :=
  .record [
    .always "id" (.uuid x.id),
    .always "name" (.str x.name),
    .always "description" (.str x.description),
    .always "concurrency" (.nat x.concurrency),
    .always "accounts" (.str x.accounts),
    .always "steps" (.arr (x.steps.map Step.toJson)),
    .always "is_active" (.bool x.isActive),
    .always "created_at" (.timestamp x.createdAt),
    .always "updated_at" (.timestamp x.updatedAt)]

end LoadTest

end MockServer
