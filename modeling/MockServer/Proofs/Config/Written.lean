/-
  MockServer.Proofs.Config.Written — settings written out and loaded
  again.

  Settings are loaded from a file and the environment, and what comes
  out can be written as JSON.  Every section is read back as it was: a
  setting that is left out is one whose default is what it was.  What
  was accepted once is accepted again, so a file with the written
  settings loads to the same settings in an environment without
  variables.

  Main definitions:
    * `Lengths`, `Config.lengths` — the lengths of time of settings;
    * `Lengths.Told` — lengths as a document has them.

  Main results:
    * `ofDocument?_toJson` — written settings are read back;
    * `told_lengths` — the units in which lengths of time are written;
    * `load_written` — loaded settings survive being written.
-/
import MockServer.Config.Load
import MockServer.Proofs.Document.Record
import MockServer.Proofs.Duration
import MockServer.Proofs.Json.Pretty

namespace MockServer.Config

open Document (ofJson)

/-! ## Sections -/

@[simp] theorem listOf?_textsJson (ss : List String) :
    Document.listOf? Document.text? (ofJson (textsJson ss)) = some ss :=
  Document.listOf?_texts ss

@[simp] theorem lookup_levelName (l : Log.Level) : Log.Level.named.lookup l.name = some l := by
  cases l <;> decide

@[simp] theorem lookup_formatName (f : Log.Format) : Log.Format.named.lookup f.name = some f := by
  cases f <;> decide

@[simp] theorem Cors.ofDocument?_toJson (x : Cors) : ofDocument? (ofJson x.toJson) = some x := by
  unfold ofDocument? toJson
  rw [Document.fields?_record (by simp [Json.Field.always])]
  simp [Json.Field.always]

@[simp] theorem Server.ofDocument?_toJson (x : Server) :
    ofDocument? (ofJson x.toJson) = some x := by
  unfold ofDocument? toJson
  rw [Document.fields?_record (by simp [Json.Field.always])]
  simp [Json.Field.always]

/-- A time without end is left out, and missing it is without end. -/
@[simp] theorem Caching.ofDocument?_toJson (x : Caching) :
    ofDocument? (ofJson x.toJson) = some x := by
  obtain ⟨enabled, maxCapacity, ttl, invalidateOnStartup⟩ := x
  unfold ofDocument? toJson
  -- the members that are written depend on whether there is a time
  cases ttl with
  | none =>
    rw [Document.fields?_record (by simp [Json.Field.always, Json.Field.whenSome])]
    simp [Json.Field.always, Json.Field.whenSome]
  | some ttl =>
    rw [Document.fields?_record (by simp [Json.Field.always, Json.Field.whenSome])]
    simp [Json.Field.always, Json.Field.whenSome]

@[simp] theorem Storage.ofDocument?_toJson (x : Storage) :
    ofDocument? (ofJson x.toJson) = some x := by
  obtain ⟨fixturesPath⟩ := x
  cases fixturesPath with
  | none => rfl
  | some path => rfl

@[simp] theorem Client.ofDocument?_toJson (x : Client) :
    ofDocument? (ofJson x.toJson) = some x := by
  unfold ofDocument? toJson
  rw [Document.fields?_record (by simp [Json.Field.always])]
  simp [Json.Field.always]

/-- No directives are left out, and missing directives are none. -/
@[simp] theorem Logging.ofDocument?_toJson (x : Logging) :
    ofDocument? (ofJson x.toJson) = some x := by
  obtain ⟨level, format, includeLocation, directives⟩ := x
  unfold ofDocument? toJson
  -- an empty list has no member, and its default is the empty list
  cases directives with
  | nil =>
    rw [Document.fields?_record (by simp [Json.Field.always, Json.Field.omitWhen])]
    simp [Json.Field.always, Json.Field.omitWhen]
  | cons d ds =>
    rw [Document.fields?_record (by simp [Json.Field.always, Json.Field.omitWhen])]
    simp [Json.Field.always, Json.Field.omitWhen]

@[simp] theorem Running.ofDocument?_toJson (x : Running) :
    ofDocument? (ofJson x.toJson) = some x := by
  unfold ofDocument? toJson
  rw [Document.fields?_record (by simp [Json.Field.always])]
  simp [Json.Field.always]

/-- **Written settings are read back**, section by section. -/
theorem ofDocument?_toJson (x : Config) : ofDocument? (ofJson x.toJson) = some x := by
  unfold ofDocument? toJson
  rw [Document.fields?_record (by simp [Json.Field.always])]
  simp [Json.Field.always]

/-! ## Texts -/

theorem bounded_uint64 (k : Nat) (n : UInt64) : Json.Bounded k (.nat n.toNat) :=
  Json.bounded_nat k n.toNat_lt

theorem bounded_uint32 (k : Nat) (n : UInt32) : Json.Bounded k (.nat n.toNat) :=
  Json.bounded_nat k (Nat.lt_trans n.toNat_lt (by decide))

theorem bounded_uint16 (k : Nat) (n : UInt16) : Json.Bounded k (.nat n.toNat) :=
  Json.bounded_nat k (Nat.lt_trans n.toNat_lt (by decide))

theorem bounded_textsJson (k : Nat) (ss : List String) : Json.Bounded (k + 1) (textsJson ss) :=
  Json.bounded_arr (List.forall_mem_map.mpr fun s _ => Json.bounded_str k s)

theorem Cors.bounded_toJson (x : Cors) : Json.Bounded 2 x.toJson := by
  refine Json.bounded_record ?_
  have horigins := bounded_textsJson 0 x.allowedOrigins
  simp [Json.Field.always, horigins, bounded_uint64]

theorem Server.bounded_toJson (x : Server) : Json.Bounded 3 x.toJson := by
  refine Json.bounded_record ?_
  simp [Json.Field.always, Json.bounded_str, Json.bounded_bool, bounded_uint16, bounded_uint64,
    x.cors.bounded_toJson]

theorem Caching.bounded_toJson (x : Caching) : Json.Bounded 3 x.toJson := by
  refine Json.bounded_record ?_
  cases httl : x.ttl <;>
    simp [Json.Field.always, Json.Field.whenSome, Json.bounded_bool, bounded_uint64]

theorem Storage.bounded_toJson (x : Storage) : Json.Bounded 3 x.toJson := by
  refine Json.bounded_record ?_
  cases hpath : x.fixturesPath <;> simp [Json.Field.whenSome, Json.bounded_str]

theorem Client.bounded_toJson (x : Client) : Json.Bounded 3 x.toJson := by
  refine Json.bounded_record ?_
  simp [Json.Field.always, Json.bounded_str, Json.bounded_bool, bounded_uint32, bounded_uint64]

theorem Logging.bounded_toJson (x : Logging) : Json.Bounded 3 x.toJson := by
  refine Json.bounded_record ?_
  have hdirectives := bounded_textsJson 1 x.directives
  cases hempty : x.directives.isEmpty <;>
    simp [Json.Field.always, Json.Field.omitWhen, Json.bounded_str, Json.bounded_bool, hdirectives]

theorem Running.bounded_toJson (x : Running) : Json.Bounded 3 x.toJson := by
  refine Json.bounded_record ?_
  simp [Json.Field.always, bounded_uint64]

theorem bounded_toJson (x : Config) : Json.Bounded 4 x.toJson := by
  refine Json.bounded_record ?_
  simp [Json.Field.always, x.server.bounded_toJson, x.cache.bounded_toJson,
    x.storage.bounded_toJson, x.http.bounded_toJson, x.logging.bounded_toJson,
    x.loadtest.bounded_toJson]

/-- **The text of written settings is read back**, with blanks or without. -/
theorem ofJsonText_toJson (x : Config) {write : Json → String}
    (hwrite : write ∈ [Json.pretty, Json.compact]) : ofJsonText (write x.toJson) = .ok x := by
  -- four containers are open at once at most, far below what the parser allows
  have hbounded : Json.Bounded Json.maxOpen x.toJson := x.bounded_toJson.mono (by decide)
  have hparse : Json.parse? (write x.toJson) = some x.toJson := by
    rcases List.mem_pair.mp hwrite with rfl | rfl
    · exact Json.parse?_pretty hbounded
    · exact Json.parse?_compact hbounded
  unfold ofJsonText Document.ofJsonText?
  rw [hparse, Option.map_some, Option.bind_some, ofDocument?_toJson]

/-! ## Lengths of time -/

/-- The lengths of time among the settings. -/
structure Lengths where
  shutdownTimeout : Duration
  corsMaxAge : Duration
  cacheTtl : Option Duration
  clientTimeout : Duration
  retryInterval : Duration
  deriving DecidableEq, Repr

/-- The lengths that the numbers of settings stand for. -/
def lengths (x : Config) : Lengths where
  shutdownTimeout := .ofSeconds x.server.shutdownTimeout.toNat
  corsMaxAge := .ofSeconds x.server.cors.maxAge.toNat
  cacheTtl := x.cache.ttl.map fun n => .ofSeconds n.toNat
  clientTimeout := .ofSeconds x.http.timeout.toNat
  retryInterval := .ofMillis x.loadtest.retryInterval.toNat

/-- What a document with settings has under a name of a section. -/
def setting? (v : Json) (domain name : String) : Option Json :=
  (v.member? domain).bind fun part => part.member? name

/-- A document with these lengths: in whole milliseconds between attempts, and in whole seconds
everywhere else. -/
structure Lengths.Told (l : Lengths) (v : Json) : Prop where
  shutdownTimeout : setting? v "server" "shutdown_timeout"
    = some (.nat l.shutdownTimeout.seconds)
  corsMaxAge : ((setting? v "server" "cors").bind fun cors => cors.member? "max_age")
    = some (.nat l.corsMaxAge.seconds)
  cacheTtl : setting? v "cache" "ttl" = l.cacheTtl.map fun d => .nat d.seconds
  clientTimeout : setting? v "http" "timeout" = some (.nat l.clientTimeout.seconds)
  retryInterval : setting? v "loadtest" "retry_interval" = some (.nat l.retryInterval.millis)

/-- **Lengths of time are written without loss**, each in the unit of its setting. -/
theorem told_lengths (x : Config) : x.lengths.Told x.toJson where
  -- a member is found by computing; what is left is the length in its unit
  shutdownTimeout := by
    show _ = some (Json.nat (Duration.ofSeconds x.server.shutdownTimeout.toNat).seconds)
    rw [Duration.seconds_ofSeconds]
    rfl
  corsMaxAge := by
    show _ = some (Json.nat (Duration.ofSeconds x.server.cors.maxAge.toNat).seconds)
    rw [Duration.seconds_ofSeconds]
    rfl
  cacheTtl := by
    unfold lengths setting?
    obtain ⟨server, ⟨enabled, maxCapacity, ttl, invalidateOnStartup⟩, storage, http, logging,
      loadtest⟩ := x
    cases ttl with
    | none => rfl
    | some n =>
      show _ = some (Json.nat (Duration.ofSeconds n.toNat).seconds)
      rw [Duration.seconds_ofSeconds]
      rfl
  clientTimeout := by
    show _ = some (Json.nat (Duration.ofSeconds x.http.timeout.toNat).seconds)
    rw [Duration.seconds_ofSeconds]
    rfl
  retryInterval := by
    show _ = some (Json.nat (Duration.ofMillis x.loadtest.retryInterval.toNat).millis)
    rw [Duration.millis_ofMillis]
    rfl

/-! ## Loading -/

/-- An environment without variables overrides nothing. -/
theorem override_empty (beginning : String) (vs : List Variable) (x : Config) :
    Environment.override ⟨.empty, beginning⟩ vs x = .ok x := by
  induction vs with
  | nil => rfl
  | cons v vs ih => exact ih

/-- Settings come out of the environment as they were accepted. -/
theorem check_of_adjusted {env : Environment} {x y : Config} (h : adjusted env x = .ok y) :
    y.check = .ok () := by
  unfold adjusted at h
  split at h
  · unfold checked at h
    split at h
    · next hcheck => exact Except.ok.inj h ▸ hcheck
    · exact absurd h nofun
  · exact absurd h nofun

theorem check_of_load {files : Files} {path : Option String} {env : Environment} {x : Config}
    (h : load files path env = .ok x) : x.check = .ok () := by
  unfold load at h
  split at h
  · exact check_of_adjusted h
  · split at h
    · exact check_of_adjusted h
    · exact absurd h nofun

/-- Accepted settings come out of an environment without variables as they were. -/
theorem adjusted_empty {x : Config} (h : x.check = .ok ()) (beginning : String) :
    adjusted ⟨.empty, beginning⟩ x = .ok x := by
  unfold adjusted checked
  rw [override_empty]
  dsimp only
  rw [h]

/-- **Loaded settings survive being written.** Whatever the file and the environment were, a file
with the ending `json` that holds the written settings, with blanks or without, loads to the same
settings in an environment without variables; and the text tells every length of time without
loss. -/
theorem load_written {files : Files} {path : Option String} {env : Environment} {x : Config}
    (h : load files path env = .ok x) :
    (∀ write ∈ [Json.pretty, Json.compact], ∀ (files' : Files) (path' beginning : String),
      FileName.extension? path' = some "json" → files'.read path' = .ok (write x.toJson) →
      load files' (some path') ⟨.empty, beginning⟩ = .ok x) ∧
    x.lengths.Told x.toJson := by
  refine ⟨?_, told_lengths x⟩
  intro write hwrite files' path' beginning hext hread
  have hfile : ofFile files' path' = .ok x := by
    unfold ofFile
    rw [hread]
    dsimp only
    rw [if_pos hext, ofJsonText_toJson x hwrite]
  -- what was accepted once is accepted again
  unfold load
  dsimp only
  rw [hfile]
  exact adjusted_empty (check_of_load h) beginning

/-! ## A file of settings -/

/-- A directory with one file. -/
def fileOf (name text : String) : Files := ⟨.ofList [(name, text)]⟩

theorem read_fileOf {name : String} (text : String) (hname : Files.steps name ≠ [])
    (hend : Files.endsInside name = false) : (fileOf name text).read name = .ok text := by
  have hway : ¬ (Files.steps name).isEmpty = true := by
    rw [List.isEmpty_iff]
    exact hname
  have hfound : (fileOf name text).texts.entries.find?
      (fun f => Files.steps f.1 == Files.steps name) = some (name, text) :=
    List.find?_cons_of_pos (beq_self_eq_true _)
  unfold Files.read
  dsimp only
  rw [if_neg hway, hfound]
  dsimp only
  rw [hend, if_neg Bool.false_ne_true]

/-- A server without a cache, whose entries would be kept for no time at all. -/
def quiet : Config where
  cache := { enabled := false, ttl := some 0 }
  logging := { format := .json }
  loadtest := { retryInterval := 1500 }

def quietFiles : Files := fileOf "mock.yaml" "cache:\n  enabled: false\n  ttl: 0\n"

def quietEnvironment : Environment where
  values := .ofList
    [("MOCKTOOL_LOADTEST_RETRY_INTERVAL_MS", "1500"), ("MOCKTOOL_LOG_FORMAT", "JSON")]

theorem load_quiet :
    load quietFiles (some "mock.yaml") quietEnvironment = .ok quiet ∧
    ∀ write ∈ [Json.pretty, Json.compact],
      load (fileOf "quiet.json" (write quiet.toJson)) (some "quiet.json") ⟨.empty, "MOCKTOOL"⟩
        = .ok quiet := by
  have hload : load quietFiles (some "mock.yaml") quietEnvironment = .ok quiet := by decide +kernel
  refine ⟨hload, fun write hwrite => ?_⟩
  have hread : (fileOf "quiet.json" (write quiet.toJson)).read "quiet.json"
      = .ok (write quiet.toJson) := read_fileOf _ (by decide) (by decide)
  exact (load_written hload).1 write hwrite _ "quiet.json" "MOCKTOOL" (by decide) hread

end MockServer.Config
