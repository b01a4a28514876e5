/-
  MockServer.Store.Error — why the store refuses, and how it says so.
-/
import MockServer.Text.Quoted

namespace MockServer

/-- A record that is already there. -/
inductive Clash where
  /-- A feature of this name. -/
  | feature (name : String)
  /-- A scenario of this name in the feature. -/
  | scenario (featureName name : String)
  /-- An activation for this feature and account. -/
  | activation (featureName : String) (account : Option String)
  /-- An active mock for this method and path in the scenario. -/
  | mock (method path featureName scenarioName : String)
  /-- A load test of this name. -/
  | loadTest (name : String)
  deriving DecidableEq, Repr

def Clash.describe : Clash → String
  | .feature name => "feature '" ++ name ++ "'"
  | .scenario featureName name => "scenario '" ++ name ++ "' of feature '" ++ featureName ++ "'"
  | .activation featureName account =>
    "mapping for feature '" ++ featureName ++ "' and account " ++ Text.quotedOption account
  | .mock method path featureName scenarioName =>
    "active mock " ++ method ++ " " ++ path ++ " in " ++ featureName ++ "/" ++ scenarioName
  | .loadTest name => "load test scenario '" ++ name ++ "'"

/-- Why a store operation failed. -/
inductive StoreError where
  /-- The record that is asked for is not there. -/
  | notFound (entity id : String)
  /-- The record would be there twice. -/
  | duplicate (clash : Clash)
  /-- The record is not fit to be stored. -/
  | invalid (detail : String)
  /-- The store cannot serve requests. -/
  | unavailable (detail : String)
  /-- A fixture names a scenario that is not declared. -/
  | undeclared (featureName name : String)
  /-- A fixture file is of no known kind. -/
  | unknownKind (extension : Option String) (path : String)
  /-- A file cannot be read. -/
  | file (detail : String)
  /-- A text is no JSON document of the right shape. -/
  | json
  /-- A text is no YAML document of the right shape. -/
  | yaml
  deriving DecidableEq, Repr

def StoreError.message : StoreError → String
  | .notFound entity id => "Entity not found: " ++ entity ++ " " ++ id
  | .duplicate clash => "Duplicate key: " ++ clash.describe
  | .invalid detail => "Validation failed: " ++ detail
  | .unavailable detail => "Storage connection failed: " ++ detail
  | .undeclared featureName name =>
    "Fixture error: scenario '" ++ name ++ "' of feature '" ++ featureName ++ "' is not declared"
  | .unknownKind extension path =>
    "Fixture error: unsupported fixture extension " ++ Text.quotedOption extension ++
      " for " ++ path
  | .file detail => "I/O error: " ++ detail
  | .json => "JSON error"
  | .yaml => "YAML error"

end MockServer
