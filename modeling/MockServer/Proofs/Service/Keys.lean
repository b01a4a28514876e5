/-
  MockServer.Proofs.Service.Keys — the keys that the requests of a run
  ask for.

  A request comes with a path that starts with a slash and with a token
  as its method.  The feature and the account of its plan are then not
  empty, the path still starts with the slash, and the fingerprint is
  empty or a digest, so the key has the form of a key of a request.
  Keys of that form have a text of their own unless one of their fields
  holds a colon in the wrong place.

  Main results:
    * `hexDigest_shape` — a digest is 64 digits in lower case;
    * `formed_cacheKey` — the key of a plan is formed;
    * `separate_asked` — the runs whose keys do not share a text.
-/
import MockServer.Proofs.Cache.Key
import MockServer.Proofs.Service.Transparency

namespace MockServer

open Cache.Key (isLowerHex)

/-! ## Digests -/

namespace Digest.Sha256

theorem isLowerHex_digit {n : Nat} (h : n < 16) : isLowerHex (Text.Hex.digit n) = true := by
  have hall : ∀ k : Fin 16, isLowerHex (Text.Hex.digit k) = true := by decide
  exact hall ⟨n, h⟩

/-- Bytes are written with two digits in lower case each. -/
theorem encode_shape (bytes : List UInt8) :
    (Text.Hex.encode bytes).length = 2 * bytes.length ∧
      (Text.Hex.encode bytes).toList.all isLowerHex = true := by
  unfold Text.Hex.encode
  rw [String.length_ofList, String.toList_ofList]
  induction bytes with
  | nil => exact ⟨rfl, rfl⟩
  | cons b bytes ih =>
    obtain ⟨hlength, hdigits⟩ := ih
    have hbyte := b.toNat_lt
    have hhigh := isLowerHex_digit (show b.toNat / 16 < 16 by omega)
    have hlow := isLowerHex_digit (show b.toNat % 16 < 16 by omega)
    rw [List.flatMap_cons, List.length_append, hlength, List.all_append, hdigits]
    unfold Text.Hex.encodeByte
    refine ⟨?_, by simp [hhigh, hlow]⟩
    simp only [List.length_cons, List.length_nil]
    omega

theorem length_bigEndian (n x : Nat) : (bigEndian n x).length = n := by
  induction n generalizing x with
  | zero => rfl
  | succ n ih =>
    unfold bigEndian
    rw [List.length_append, ih, List.length_singleton]

/-- **A digest is 64 hexadecimal digits in lower case.** -/
theorem hexDigest_shape (message : List UInt8) :
    (hexDigest message).length = 64 ∧ (hexDigest message).toList.all isLowerHex = true := by
  have hlength : (digest message).length = 32 := by
    unfold digest State.bytes
    simp [length_bigEndian]
  obtain ⟨hdigits, hlower⟩ := encode_shape (digest message)
  rw [hlength] at hdigits
  exact ⟨hdigits, hlower⟩

end Digest.Sha256

theorem Fingerprint.ofBody_shape (bytes : List UInt8) : Fingerprint.ofBody bytes = "" ∨
    ((Fingerprint.ofBody bytes).length = 64 ∧
      (Fingerprint.ofBody bytes).toList.all isLowerHex = true) := by
  unfold Fingerprint.ofBody
  split
  next => exact Or.inl rfl
  next =>
    split
    next => exact Or.inr (Digest.Sha256.hexDigest_shape _)
    next => exact Or.inr (Digest.Sha256.hexDigest_shape _)

/-! ## The key of a plan -/

namespace Resolve

theorem given_ne {value : Option String} : given value ≠ some "" := by
  intro h
  unfold given at h
  exact absurd (Option.filter_eq_some_iff.mp h).2 (by decide)

theorem featureOf_ne {r : Request} {feature : String} (h : featureOf r = .ok feature) :
    feature ≠ "" := by
  unfold featureOf at h
  split at h
  next given hgiven =>
    rintro rfl
    rw [Except.ok.inj h] at hgiven
    exact given_ne hgiven
  next => exact absurd h (by simp)

theorem accountOf_ne {r : Request} {account : Option String} (h : accountOf r = .ok account) :
    account ≠ some "" := by
  unfold accountOf at h
  split at h
  next =>
    rw [← Except.ok.inj h]
    simp
  next =>
    split at h
    next given hgiven =>
      rintro rfl
      rw [Except.ok.inj h] at hgiven
      exact given_ne hgiven
    next => exact absurd h (by simp)

theorem fingerprintOf_shape {body : List UInt8} {hash : String}
    (h : fingerprintOf body = .ok hash) :
    hash = "" ∨ (hash.length = 64 ∧ hash.toList.all isLowerHex = true) := by
  unfold fingerprintOf at h
  split at h
  next => exact Or.inl (Except.ok.inj h).symm
  next =>
    split at h
    next =>
      rw [← Except.ok.inj h]
      exact Fingerprint.ofBody_shape body
    next => exact absurd h (by simp)

/-- A path goes on with its query, behind its first slash. -/
theorem compose_slash {path : String} (query : Option String)
    (h : ∃ rest, path.toList = '/' :: rest) :
    ∃ rest, (Url.Lookup.compose path query).toList = '/' :: rest := by
  obtain ⟨rest, hrest⟩ := h
  unfold Url.Lookup.compose
  simp only
  split
  next => exact ⟨rest, hrest⟩
  next =>
    rw [String.toList_ofList, hrest]
    exact ⟨_, rfl⟩

/-- **The key of a plan is formed**, if the path of the request starts with a slash and its method
is a token. -/
theorem formed_cacheKey {s : Service} {r : Request} {p : Plan} (h : plan s r = .ok p)
    (hpath : ∃ rest, r.path.toList = '/' :: rest) (hmethod : Header.isName r.method = true) :
    p.cacheKey.Formed := by
  obtain ⟨account, feature, selection, hash, haccount, hfeature, -, hhash, rfl⟩ :=
    plan_eq_ok.mp h
  exact ⟨featureOf_ne hfeature, accountOf_ne haccount, compose_slash r.query hpath, hmethod,
    fingerprintOf_shape hhash⟩

end Resolve

/-! ## The keys of a run -/

namespace Service

open Resolve (Plan)

/-- A plan of a run is the plan of one of its requests. -/
theorem exists_of_mem_asked {s : Service} {ops : List Op} {p : Plan} (h : p ∈ s.asked ops) :
    ∃ t r took, Op.resolve r took ∈ ops ∧ Resolve.plan t r = .ok p := by
  induction ops generalizing s with
  | nil => exact absurd h List.not_mem_nil
  | cons op ops ih =>
    rcases List.mem_append.mp h with hfirst | hlater
    · cases op with
      | resolve r took =>
        refine ⟨s, r, took, List.mem_cons_self, ?_⟩
        simp only [askedBy] at hfirst
        cases hplan : Resolve.plan s r with
        | error e =>
          rw [hplan] at hfirst
          exact absurd hfirst List.not_mem_nil
        | ok q =>
          rw [hplan] at hfirst
          rw [List.mem_singleton.mp hfirst]
      | record op => exact absurd hfirst List.not_mem_nil
      | activate id account => exact absurd hfirst List.not_mem_nil
      | deactivate id account => exact absurd hfirst List.not_mem_nil
    · obtain ⟨t, r, took, hmem, hplan⟩ := ih hlater
      exact ⟨t, r, took, List.mem_cons_of_mem _ hmem, hplan⟩

/-- **The runs whose keys do not share a text.**  If each request of the run has a path that starts
with a slash and a token as its method, it is enough that no key of the run has a colon at which
another field could end. -/
theorem separate_asked {s : Service} {ops : List Op}
    (hrequests : ∀ r took, Op.resolve r took ∈ ops →
      (∃ rest, r.path.toList = '/' :: rest) ∧ Header.isName r.method = true)
    (hkeys : ∀ p ∈ s.asked ops, ¬ p.cacheKey.Ambiguous) : Separate (s.asked ops) := by
  -- every plan of the run comes from a request of the run
  have hformed : ∀ p ∈ s.asked ops, p.cacheKey.Formed := by
    intro p hp
    obtain ⟨t, r, took, hmem, hplan⟩ := exists_of_mem_asked hp
    obtain ⟨hpath, hmethod⟩ := hrequests r took hmem
    exact Resolve.formed_cacheKey hplan hpath hmethod
  intro p hp q hq htext
  exact Cache.Key.eq_of_toText_eq (hformed q hq) (hformed p hp) (hkeys q hq) htext

end Service

end MockServer
