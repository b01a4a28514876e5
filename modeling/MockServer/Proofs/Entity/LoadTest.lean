/-
  MockServer.Proofs.Entity.LoadTest — steps of load tests kept as JSON.

  A step is written without the fields that hold nothing, and read back
  with them empty.  A table is read back if its names are in order, and
  in every table that was read they are.  Nothing else is asked of a
  step: what its texts and numbers say is not looked at.

  Main results:
    * `Step.ofDocument?_toJson` — a written step is read back;
    * `Step.exists_ofDocument?_iff` — the steps that a document can hold.
-/
import MockServer.Entity.LoadTest
import MockServer.Proofs.Dict
import MockServer.Proofs.Document.Record

namespace MockServer

open Document (ofJson)

namespace Document

/-! ## Tables of texts -/

theorem entries?_textTable (d : Dict String) :
    entries? (ofJson (.textTable d)) = some (d.entries.map fun e => (e.1, ofJson (.str e.2))) := by
  refine (entries?_ofMembers (d.entries.map fun e => (e.1, .str e.2)) true).trans ?_
  rw [List.map_map]
  rfl

/-- **A table of texts is read back**, if its names are in order. -/
theorem textTable?_textTable {d : Dict String} (h : Dict.Increasing d.entries) :
    textTable? (ofJson (.textTable d)) = some d := by
  have hvalues : ∀ es : List (String × String),
      (es.map fun e => (e.1, ofJson (.str e.2))).mapM
        (fun e => (text? e.2).map fun v => (e.1, v)) = some es := by
    intro es
    induction es with
    | nil => rfl
    | cons e es ih =>
      rw [List.map_cons, List.mapM_cons, ih]
      rfl
  unfold textTable? dictOf?
  rw [entries?_textTable]
  show (Option.bind (List.mapM _ (d.entries.map _)) fun values => some (Dict.ofList values)) = _
  rw [hvalues, Option.bind_some, Dict.ofList_entries h]

/-- A table that was read has its names in order. -/
theorem increasing_of_textTable? {d : Document} {t : Dict String} (h : textTable? d = some t) :
    Dict.Increasing t.entries := by
  obtain ⟨entries, -, h⟩ := Option.bind_eq_some_iff.mp h
  obtain ⟨values, -, h⟩ := Option.bind_eq_some_iff.mp h
  rw [← Option.some.inj h]
  exact Dict.increasing_ofList values

theorem increasing_of_optional {f : Fields} {name : String} {t : Dict String}
    (h : f.optional name .empty textTable? = some t) : Dict.Increasing t.entries := by
  unfold Fields.optional at h
  split at h
  next =>
    rw [← Option.some.inj h]
    exact List.Pairwise.nil
  next d _ => exact increasing_of_textTable? h

end Document

/-! ## Steps -/

namespace Step

/-- **A written step is read back**, if its tables have their names in order. -/
theorem ofDocument?_toJson {x : Step} (hheaders : Dict.Increasing x.headers.entries)
    (hsave : Dict.Increasing x.saveVariables.entries) : ofDocument? (ofJson x.toJson) = some x := by
  have hheaders := Document.textTable?_textTable hheaders
  have hsave := Document.textTable?_textTable hsave
  unfold ofDocument? toJson
  rw [Document.fields?_record, Document.map_members]
  · simp [-List.append_nil, Document.Fields.text, Document.Fields.ite_absent, Dict.isEmpty_iff,
      hheaders, hsave]
  · -- no name is repeated among all that a step can have
    have hnames : ["name", "method", "path", "headers", "body", "save_variables", "expect_status",
        "wait_after_seconds", "retry_for_seconds", "max_retry_times", "condition"].Nodup := by decide
    refine hnames.sublist (Document.names_sublist ?_)
    simp only [List.forall₂_cons, List.Forall₂.nil, Document.names_always, Document.names_omitWhen,
      true_and]

/-- **A document can hold any step** whose tables have their names in order. -/
theorem exists_ofDocument?_iff {x : Step} :
    (∃ d, ofDocument? d = some x) ↔
      Dict.Increasing x.headers.entries ∧ Dict.Increasing x.saveVariables.entries := by
  constructor
  · rintro ⟨d, h⟩
    unfold ofDocument? at h
    obtain ⟨f, -, h⟩ := Option.bind_eq_some_iff.mp h
    obtain ⟨name, -, h⟩ := Option.bind_eq_some_iff.mp h
    obtain ⟨method, -, h⟩ := Option.bind_eq_some_iff.mp h
    obtain ⟨path, -, h⟩ := Option.bind_eq_some_iff.mp h
    obtain ⟨headers, hheaders, h⟩ := Option.bind_eq_some_iff.mp h
    obtain ⟨body, -, h⟩ := Option.bind_eq_some_iff.mp h
    obtain ⟨saveVariables, hsave, h⟩ := Option.bind_eq_some_iff.mp h
    obtain ⟨expectStatus, -, h⟩ := Option.bind_eq_some_iff.mp h
    obtain ⟨waitAfterSeconds, -, h⟩ := Option.bind_eq_some_iff.mp h
    obtain ⟨retryForSeconds, -, h⟩ := Option.bind_eq_some_iff.mp h
    obtain ⟨maxRetryTimes, -, h⟩ := Option.bind_eq_some_iff.mp h
    obtain ⟨condition, -, h⟩ := Option.bind_eq_some_iff.mp h
    rw [← Option.some.inj h]
    exact ⟨Document.increasing_of_optional hheaders, Document.increasing_of_optional hsave⟩
  · rintro ⟨hheaders, hsave⟩
    exact ⟨ofJson x.toJson, ofDocument?_toJson hheaders hsave⟩

end Step

end MockServer
