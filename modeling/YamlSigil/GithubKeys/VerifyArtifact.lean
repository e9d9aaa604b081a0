/-
Verification of an artifact with the keys of a chosen signer.

The artifact is looked at before any key is asked for, and says nothing about the keys: who
the signer is has been chosen.  The payload comes from the first of the signer's keys that
the signature matches.  Each step is announced before it is taken, and verification ends with
an error when a line of progress cannot be written.
-/
import YamlSigil.GithubKeys.Discovery
import YamlSigil.Verification.Soundness
import YamlSigil.Verification.Staged

namespace YamlSigil
namespace GithubKeys

open YamlSigil.Core Verification Control Format.SemVer

def maxDocumentBytes : Nat := 4 * 1024 * 1024

def resourceLimits : ArtifactResourceLimits where
  maxArtifactBytes := some ⟨maxDocumentBytes, by decide, by decide⟩

/-- How outcomes and states are written. -/
structure Wording where
  outcome : PreVerifyOutcome → Text
  state : VerifierState → Text

structure Verified (S : Ssh) where
  payload : Bytes
  fingerprint : S.Fingerprint
  source : Option Text

/-! ## Progress -/

/-- What is put to the outside: a request, and what is written as progress. -/
inductive Outside where
  | get (url : Text)
  | write (text : Text)
  | flush
deriving Repr, DecidableEq

def Outside.Answer : Outside → Type
  | .get _ => Except KeyError Response
  | .write _ | .flush => Except KeyError Unit

abbrev Verifying (α : Type) := ExceptT KeyError (Dialogue Outside Outside.Answer) α

/-- `writeln!` -/
def writeLine (line : Text) : Verifying Unit := ExceptT.mk (.ask (.write (line ++ ['\n'])) .done)

def flush : Verifying Unit := ExceptT.mk (.ask .flush .done)

def printStep (step total : Nat) (title : Text) : Verifying Unit := do
  writeLine ("====== ".toList ++ digits step ++ '/' :: digits total ++ ' ' :: title ++
    " ======".toList)
  flush

/-- A lookup that is part of a verification. -/
def lookUp {α : Type} (p : Looking α) : Verifying α :=
  ExceptT.mk (p.run.adapt Outside.get fun _ answer => answer)

section
variable {C : KeyCrypto} {S : Ssh}

inductive Signer (C : KeyCrypto) (S : Ssh) where
  | gitHub (account : GitHubAccount)
  | publicKey (candidate : Candidate C S)

/-- An account is looked up, a key is not. -/
def Signer.resolve (W : Web) : Signer C S → Verifying (List (Candidate C S))
  | .gitHub account => do
    account.keyUrls.forM fun url => writeLine ("Account key URL: ".toList ++ url)
    lookUp (fetchPages C S W account)
  | .publicKey candidate => do
    writeLine "Using the supplied public key; no GitHub key lookup.".toList
    pure [candidate]

variable (K : Backend) (M : Wording)

/-- `pre_verify_yaml_with_resource_limits` -/
def preVerifyYamlWithResourceLimits (artifact : Bytes) (allowUnsigned : Bool)
    (limits : ArtifactResourceLimits) : Run (Except ArtifactResourceError PreVerifyResponse) :=
  match limits.checkInputSize .yaml artifact with
  | .error e => some (.error e)
  | .ok _ => (preVerifyYaml K artifact allowUnsigned).map .ok

/-- The signature metadata of an artifact, which must be of an Ed25519 signature. -/
def checkMetadata (artifact : Bytes) : Run (Except KeyError PreVerifyResponse) := do
  match ← preVerifyYamlWithResourceLimits K artifact false resourceLimits with
  | .error e =>
    some (.error (.context "signed document exceeds the example limit".toList (.resource e)))
  | .ok pre =>
    if pre.outcome ≠ .ok then
      some (.error (.message ("artifact cannot be verified: ".toList ++ M.outcome pre.outcome)))
    else
      match pre.unverifiedSignature with
      | none => some (.error (.message "missing signature metadata".toList))
      | some metadata =>
        if metadata.algorithm ≠ .ed25519 then
          some (.error (.message "this example verifies Ed25519 only".toList))
        else some (.ok pre)

def verifierOptions (defaults : VerifierOptions) : VerifierOptions :=
  { defaults with verifyEcdsaP256Sha256 := false }

def Candidate.publicKeys (c : Candidate C S) :
    PublicKeys C.Ed25519VerifyingKey C.P256VerifyingKey :=
  ⟨some c.key, none⟩

/-- The first candidate that the signature matches. -/
def verifyCandidates (options : VerifierOptions) (pre : PreVerifyResponse) :
    List (Candidate C S) → Run (Except KeyError (Verified S))
  | [] =>
    some (.error (.message
      "signature does not match any Ed25519 key for the selected signer".toList))
  | candidate :: rest =>
    match Staged.verifyFromPreVerifyYaml C.toCrypto pre candidate.publicKeys options with
    | none => none
    | some (.error e) =>
      some (.error (.context "verification invocation failed".toList (.invocation e)))
    | some (.ok (.verified payload _)) =>
      some (.ok ⟨payload, candidate.fingerprint, candidate.source⟩)
    | some (.ok .signedButFailedVerification) => verifyCandidates options pre rest
    | some (.ok other) =>
      some (.error (.message ("artifact cannot be verified: ".toList ++ M.state other)))

/-- The keys that are tried. -/
def resolveKeys (resolve : Verifying (List (Candidate C S)))
    (fingerprint : Option S.Fingerprint) : Verifying (List (Candidate C S)) := do
  printStep 4 5 "Resolve public keys".toList
  let candidates ← resolve
  let candidates ← ExceptT.mk (pure (filterFingerprint candidates fingerprint))
  writeLine ("Supported Ed25519 keys: ".toList ++ digits candidates.length ++ ['.'])
  printStep 5 5 "Verify the signature".toList
  pure candidates

/-- Keys are resolved when the metadata is checked, and then once. -/
def verifyArtifact (defaults : VerifierOptions) (artifact : Bytes)
    (resolve : Verifying (List (Candidate C S))) (fingerprint : Option S.Fingerprint) :
    Dialogue Outside Outside.Answer (Run (Except KeyError (Verified S))) := do
  match ← (printStep 3 5 "Check signature metadata".toList).run with
  | .error e => pure (some (.error e))
  | .ok () =>
    match checkMetadata K M artifact with
    | none => pure none
    | some (.error e) => pure (some (.error e))
    | some (.ok pre) =>
      match ← (resolveKeys resolve fingerprint).run with
      | .error e => pure (some (.error e))
      | .ok candidates => pure (verifyCandidates M (verifierOptions defaults) pre candidates)

/-! ## What is verified -/

/-- The verdict of the library on the artifact under the key of a candidate. -/
def verdictOf (defaults : VerifierOptions) (artifact : Bytes) (c : Candidate C S) :
    Run (Except InvocationError VerifierState) :=
  verify C.toCrypto K artifact .yaml c.publicKeys (verifierOptions defaults)

/-- The first of the candidates that the signature matches, behind others that it does not
match, and the payload under its key. -/
def Matches (defaults : VerifierOptions) (artifact : Bytes) (candidates : List (Candidate C S))
    (v : Verified S) : Prop :=
  ∃ before c after, candidates = before ++ c :: after ∧
    (∀ b ∈ before, verdictOf K defaults artifact b = some (.ok .signedButFailedVerification)) ∧
    verdictOf K defaults artifact c = some (.ok (.verified v.payload .ed25519)) ∧
    v.fingerprint = c.fingerprint ∧ v.source = c.source

variable {K M} {defaults : VerifierOptions} {artifact : Bytes}

theorem matches_nil {v : Verified S} : ¬Matches (C := C) K defaults artifact [] v := by
  rintro ⟨before, c, after, h, -⟩
  exact List.append_ne_nil_of_right_ne_nil before (List.cons_ne_nil c after) h.symm

theorem matches_cons {c : Candidate C S} {rest : List (Candidate C S)} {v : Verified S} :
    Matches K defaults artifact (c :: rest) v ↔
      (verdictOf K defaults artifact c = some (.ok (.verified v.payload .ed25519)) ∧
        v.fingerprint = c.fingerprint ∧ v.source = c.source) ∨
      (verdictOf K defaults artifact c = some (.ok .signedButFailedVerification) ∧
        Matches K defaults artifact rest v) := by
  constructor
  · rintro ⟨before, c', after, heq, hbefore, hc⟩
    cases before with
    | nil =>
      cases heq
      exact .inl hc
    | cons b before =>
      obtain ⟨rfl, rfl⟩ := List.cons.inj heq
      rw [List.forall_mem_cons] at hbefore
      exact .inr ⟨hbefore.1, before, c', after, rfl, hbefore.2, hc⟩
  · rintro (hc | ⟨hc, before, c', after, rfl, hbefore, hc'⟩)
    · exact ⟨[], c, rest, rfl, fun _ h => (List.not_mem_nil h).elim, hc⟩
    · exact ⟨c :: before, c', after, rfl, List.forall_mem_cons.mpr ⟨hc, hbefore⟩, hc'⟩

/-- Where P-256 is not verified, what is verified is an Ed25519 signature. -/
theorem verdictOf_verified {c : Candidate C S} {payload : Bytes} {algorithm : AlgorithmId}
    (h : verdictOf K defaults artifact c = some (.ok (.verified payload algorithm))) :
    algorithm = .ed25519 ∧ ∃ content, signedContent K .yaml artifact = some content ∧
      content.fields.alg = .ed25519 := by
  unfold verdictOf at h
  rw [verify_eq_verdict] at h
  split_ifs at h
  · cases Option.some.inj h
  obtain ⟨content, o, hcontent, -, halg, -, haccepted⟩ :=
    verdict_eq_verified_iff.mp (Option.some.inj h)
  have henabled := haccepted.enabled
  cases algorithm with
  | ed25519 => exact ⟨rfl, content, hcontent, halg⟩
  | ecdsaP256Sha256 => cases henabled

theorem verdictOf_ne_none (c : Candidate C S) : verdictOf K defaults artifact c ≠ none := by
  unfold verdictOf
  rw [verify_eq_verdict]
  split_ifs
  · exact Option.some_ne_none _
  · exact Option.some_ne_none _

/-- The two stages are `verify`. -/
theorem verifyFromPreVerifyYaml_response {content : SignedContent}
    (h : signedContent K .yaml artifact = some content) (c : Candidate C S) :
    Staged.verifyFromPreVerifyYaml C.toCrypto (content.response .yaml) c.publicKeys
      (verifierOptions defaults) = verdictOf K defaults artifact c := by
  have hpre := preVerify_spec K artifact .yaml
  rw [h] at hpre
  unfold verdictOf
  rw [verify_eq_staged]
  generalize preVerify K artifact .yaml false = pre at hpre
  cases hpre
  unfold Staged.verifyFromPreVerifyYaml
  have hok : (content.response .yaml).outcome = .ok := rfl
  split_ifs with hparams
  · rfl
  · rw [Option.bind_some, if_pos hok, Staged.verifyFromPreVerify_eq, if_neg hparams]
    rfl

theorem verifyCandidates_eq_iff {content : SignedContent}
    (h : signedContent K .yaml artifact = some content) {candidates : List (Candidate C S)}
    {v : Verified S} :
    verifyCandidates M (verifierOptions defaults) (content.response .yaml) candidates =
      some (.ok v) ↔ Matches K defaults artifact candidates v := by
  induction candidates with
  | nil => exact iff_of_false (fun h => by cases h) matches_nil
  | cons c rest ih =>
    rw [matches_cons, verifyCandidates, verifyFromPreVerifyYaml_response h]
    cases hc : verdictOf K defaults artifact c with
    | none => exact absurd hc (verdictOf_ne_none c)
    | some r =>
      cases r with
      | error e =>
        refine iff_of_false (fun h => by cases h) ?_
        rintro (⟨h, -⟩ | ⟨h, -⟩)
        · cases h
        · cases h
      | ok state =>
        cases state with
        | verified payload algorithm =>
          obtain ⟨rfl, -⟩ := verdictOf_verified hc
          constructor
          · intro h
            cases h
            exact .inl ⟨rfl, rfl, rfl⟩
          · rintro (⟨h, hfingerprint, hsource⟩ | ⟨h, -⟩)
            · cases h
              cases v
              cases hfingerprint
              cases hsource
              rfl
            · cases h
        | signedButFailedVerification =>
          constructor
          · intro h
            exact .inr ⟨rfl, ih.mp h⟩
          · rintro (⟨h, -⟩ | ⟨-, h⟩)
            · cases h
            · exact ih.mpr h
        | unsigned | malformedAttemptedSigned | signedButAlgorithmUnsupported =>
          refine iff_of_false (fun h => by cases h) ?_
          rintro (⟨h, -⟩ | ⟨h, -⟩)
          · cases h
          · cases h

theorem verifyCandidates_ne_none {content : SignedContent}
    (h : signedContent K .yaml artifact = some content) (candidates : List (Candidate C S)) :
    verifyCandidates M (verifierOptions defaults) (content.response .yaml) candidates ≠ none := by
  induction candidates with
  | nil => exact Option.some_ne_none _
  | cons c rest ih =>
    rw [verifyCandidates, verifyFromPreVerifyYaml_response h]
    cases hc : verdictOf K defaults artifact c with
    | none => exact absurd hc (verdictOf_ne_none c)
    | some r =>
      cases r with
      | error e => exact Option.some_ne_none _
      | ok state =>
        cases state with
        | signedButFailedVerification => exact ih
        | verified | unsigned | malformedAttemptedSigned | signedButAlgorithmUnsupported =>
          exact Option.some_ne_none _

/-! ## What is checked before a key is asked for -/

/-- The metadata of an artifact of an allowed size, signed with Ed25519, and no other. -/
inductive MetadataChecked (K : Backend) (artifact : Bytes) :
    Run (Except KeyError PreVerifyResponse) → Prop
  | ok {content : SignedContent} (hsize : artifact.length ≤ maxDocumentBytes)
      (hcontent : signedContent K .yaml artifact = some content)
      (halg : content.fields.alg = .ed25519) :
      MetadataChecked K artifact (some (.ok (content.response .yaml)))
  | error (e : KeyError) (h : ¬(artifact.length ≤ maxDocumentBytes ∧ ∃ content,
      signedContent K .yaml artifact = some content ∧ content.fields.alg = .ed25519)) :
      MetadataChecked K artifact (some (.error e))

theorem checkMetadata_spec : MetadataChecked K artifact (checkMetadata K M artifact) := by
  unfold checkMetadata preVerifyYamlWithResourceLimits
  have hlimits : resourceLimits.checkInputSize .yaml artifact =
      if artifact.length > maxDocumentBytes then
        .error ⟨.inputArtifactTooLarge, some .yaml, some maxDocumentBytes, some artifact.length⟩
      else .ok artifact := rfl
  have hpre : PreVerifies .yaml _ (preVerifyYaml K artifact false) := preVerify_spec K artifact .yaml
  rw [hlimits]
  by_cases hsize : artifact.length > maxDocumentBytes
  · rw [if_pos hsize]
    exact .error _ fun h => Nat.not_lt.mpr h.1 hsize
  · rw [if_neg hsize]
    generalize hcontent : signedContent K .yaml artifact = found at hpre
    generalize preVerifyYaml K artifact false = pre at hpre
    cases hpre with
    | content content =>
      show MetadataChecked K artifact (if content.fields.alg ≠ .ed25519 then _ else _)
      split_ifs with halg
      · refine .error _ ?_
        rintro ⟨-, content', hcontent', halg'⟩
        rw [hcontent] at hcontent'
        cases hcontent'
        exact halg halg'
      · exact .ok (Nat.not_lt.mp hsize) hcontent (not_not.mp halg)
    | structural | metadata =>
      refine .error _ ?_
      rintro ⟨-, content', hcontent', -⟩
      rw [hcontent] at hcontent'
      cases hcontent'

/-! ## What is put to the outside -/

/-- The URLs that are asked for. -/
def requests (questions : List Outside) : List Text :=
  questions.filterMap fun q => match q with
    | .get url => some url
    | .write _ | .flush => none

theorem requests_append (l l' : List Outside) :
    requests (l ++ l') = requests l ++ requests l' := List.filterMap_append

section
variable {T : Type} {party : Party Outside Outside.Answer T} {α β : Type}

/-- Nothing is asked for, only progress is written. -/
def Silent (party : Party Outside Outside.Answer T) (p : Verifying α) : Prop :=
  ∀ s, requests (p.run.calls party s) = []

theorem calls_bind (p : Verifying α) (f : α → Verifying β) (s : T) :
    (p >>= f).run.calls party s = p.run.calls party s ++
      (ExceptT.bindCont f (p.run.run party s).1).calls party (p.run.run party s).2 :=
  Dialogue.calls_bind party p.run (ExceptT.bindCont f) s

/-- What comes first asks for everything. -/
theorem requests_bind (p : Verifying α) {f : α → Verifying β} (hf : ∀ a, Silent party (f a))
    (s : T) : requests ((p >>= f).run.calls party s) = requests (p.run.calls party s) := by
  rw [calls_bind, requests_append]
  cases (p.run.run party s).1 with
  | error e => exact List.append_nil _
  | ok a =>
    have hrest : requests ((f a).run.calls party (p.run.run party s).2) = [] := hf a _
    exact (congrArg (_ ++ ·) hrest).trans (List.append_nil _)

/-- What comes last asks for everything, if it is come to. -/
theorem Silent.requests_bind {p : Verifying α} (hp : Silent party p) (f : α → Verifying β)
    (s : T) : requests ((p >>= f).run.calls party s) = [] ∨
      ∃ a t, Dialogue.Passes party p s a t ∧
        requests ((p >>= f).run.calls party s) = requests ((f a).run.calls party t) := by
  rw [calls_bind, requests_append, hp s, List.nil_append]
  rcases hrun : p.run.run party s with ⟨r, t⟩
  cases r with
  | error e => exact .inl rfl
  | ok a => exact .inr ⟨a, t, hrun, rfl⟩

theorem Silent.bind {p : Verifying α} {f : α → Verifying β} (hp : Silent party p)
    (hf : ∀ a, Silent party (f a)) : Silent party (p >>= f) := fun s =>
  (GithubKeys.requests_bind p hf s).trans (hp s)

theorem silent_result (r : Except KeyError α) : Silent party (ExceptT.mk (pure r)) := fun _ => rfl

theorem silent_writeLine (line : Text) : Silent party (writeLine line) := fun _ => rfl

theorem silent_printStep (step total : Nat) (title : Text) :
    Silent party (printStep step total title) :=
  (silent_writeLine _).bind fun _ _ => rfl

end

/-- A lookup asks for the pages of the account, one after the other, and a key for none. -/
theorem requests_resolve {T : Type} (party : Party Outside Outside.Answer T) (W : Web)
    (signer : Signer C S) (s : T) :
    requests ((signer.resolve W).run.calls party s) = [] ∨
      ∃ account t, signer = .gitHub account ∧ requests ((signer.resolve W).run.calls party s) =
        (fetchPages C S W account).run.calls (fun url => party (.get url)) t := by
  cases signer with
  | publicKey candidate => exact .inl ((silent_writeLine _).bind (fun _ _ => rfl) s)
  | gitHub account =>
    have hurls : ∀ urls : List Text, Silent party
        (urls.forM fun url => writeLine ("Account key URL: ".toList ++ url)) := by
      intro urls
      induction urls with
      | nil => exact fun _ => rfl
      | cons url rest ih => exact (silent_writeLine _).bind fun _ => ih
    rcases (hurls account.keyUrls).requests_bind (fun _ => lookUp (fetchPages C S W account)) s with
      h | ⟨_, t, -, h⟩
    · exact .inl h
    · refine .inr ⟨account, t, rfl, h.trans ?_⟩
      have hcalls : (lookUp (fetchPages C S W account)).run.calls party t =
          ((fetchPages C S W account).run.calls (fun url => party (.get url)) t).map .get :=
        Dialogue.calls_adapt _ _ party _ t
      rw [hcalls, requests, List.filterMap_map]
      exact List.filterMap_some

/-- The keys that are tried: those that resolving finds, with the fingerprint.  Four times
progress is written on the way. -/
inductive KeysTried {T : Type} (party : Party Outside Outside.Answer T)
    (resolve : Verifying (List (Candidate C S))) (fingerprint : Option S.Fingerprint) (s : T) :
    List (Candidate C S) → Prop
  | intro {s₁ s₂ s₃ s₄ s₅ : T} {candidates kept : List (Candidate C S)}
      (hcheck : Dialogue.Passes party (printStep 3 5 "Check signature metadata".toList) s () s₁)
      (hstep : Dialogue.Passes party (printStep 4 5 "Resolve public keys".toList) s₁ () s₂)
      (hresolved : Dialogue.Passes party resolve s₂ candidates s₃)
      (hkept : kept = candidates.filter fun c => fingerprint.all fun value =>
        c.fingerprint = value)
      (hcount : Dialogue.Passes party (writeLine ("Supported Ed25519 keys: ".toList ++
        digits kept.length ++ ['.'])) s₃ () s₄)
      (hverify : Dialogue.Passes party (printStep 5 5 "Verify the signature".toList) s₄ () s₅) :
      KeysTried party resolve fingerprint s kept

section
variable {T : Type} {party : Party Outside Outside.Answer T} {s : T}
  {resolve : Verifying (List (Candidate C S))} {fingerprint : Option S.Fingerprint}

theorem filterFingerprint_eq_ok_iff {candidates kept : List (Candidate C S)} :
    filterFingerprint candidates fingerprint = .ok kept ↔
      kept = (candidates.filter fun c => fingerprint.all fun value => c.fingerprint = value) ∧
        kept ≠ [] := by
  unfold filterFingerprint
  dsimp only
  split_ifs with hempty
  · refine iff_of_false (fun h => by cases h) ?_
    rintro ⟨rfl, hne⟩
    exact hne hempty
  · constructor
    · intro h
      cases h
      exact ⟨rfl, hempty⟩
    · rintro ⟨rfl, -⟩
      rfl

theorem keysTried_iff {kept : List (Candidate C S)} (hne : kept ≠ []) :
    KeysTried party resolve fingerprint s kept ↔
      ∃ s₁ t, Dialogue.Passes party (printStep 3 5 "Check signature metadata".toList) s () s₁ ∧
        Dialogue.Passes party (resolveKeys resolve fingerprint) s₁ kept t := by
  unfold resolveKeys
  constructor
  · intro h
    cases h with
    | @intro s₁ s₂ s₃ s₄ s₅ candidates _ hcheck hstep hresolved hkept hcount hverify =>
      have hfilter := filterFingerprint_eq_ok_iff.mpr ⟨hkept, hne⟩
      refine ⟨s₁, s₅, hcheck, ?_⟩
      refine Dialogue.passes_bind_iff.mpr ⟨(), s₂, hstep, ?_⟩
      refine Dialogue.passes_bind_iff.mpr ⟨candidates, s₃, hresolved, ?_⟩
      refine Dialogue.passes_bind_iff.mpr
        ⟨kept, s₃, Dialogue.passes_result_iff.mpr ⟨hfilter, rfl⟩, ?_⟩
      refine Dialogue.passes_bind_iff.mpr ⟨(), s₄, hcount, ?_⟩
      exact Dialogue.passes_bind_iff.mpr ⟨(), s₅, hverify, rfl⟩
  · rintro ⟨s₁, t, hcheck, h⟩
    obtain ⟨_, s₂, hstep, h⟩ := Dialogue.passes_bind_iff.mp h
    obtain ⟨candidates, s₃, hresolved, h⟩ := Dialogue.passes_bind_iff.mp h
    obtain ⟨kept', s₃', hfilter, h⟩ := Dialogue.passes_bind_iff.mp h
    obtain ⟨hkept, rfl⟩ := Dialogue.passes_result_iff.mp hfilter
    obtain ⟨_, s₄, hcount, h⟩ := Dialogue.passes_bind_iff.mp h
    obtain ⟨_, s₅, hverify, h⟩ := Dialogue.passes_bind_iff.mp h
    cases h
    exact .intro hcheck hstep hresolved (filterFingerprint_eq_ok_iff.mp hkept).1 hcount hverify

/-- Once the metadata is announced, the keys are tried from where that left the world. -/
theorem keysTried_iff_of_check {kept : List (Candidate C S)} {s₁ : T} (hne : kept ≠ [])
    (hcheck : Dialogue.Passes party (printStep 3 5 "Check signature metadata".toList) s () s₁) :
    KeysTried party resolve fingerprint s kept ↔
      ∃ t, Dialogue.Passes party (resolveKeys resolve fingerprint) s₁ kept t := by
  rw [keysTried_iff hne]
  constructor
  · rintro ⟨s₁', t, h, hkeys⟩
    cases hcheck.symm.trans h
    exact ⟨t, hkeys⟩
  · rintro ⟨t, hkeys⟩
    exact ⟨s₁, t, hcheck, hkeys⟩

/-- Behind its heading, the requests of this step are those of the signer. -/
theorem requests_resolveKeys (party : Party Outside Outside.Answer T)
    (resolve : Verifying (List (Candidate C S))) (fingerprint : Option S.Fingerprint) (s : T) :
    requests ((resolveKeys resolve fingerprint).run.calls party s) = [] ∨
      ∃ t, Dialogue.Passes party (printStep 4 5 "Resolve public keys".toList) s () t ∧
        requests ((resolveKeys resolve fingerprint).run.calls party s) =
          requests (resolve.run.calls party t) := by
  unfold resolveKeys
  rcases (silent_printStep _ _ _).requests_bind _ s with h | ⟨_, t, hstep, h⟩
  · exact .inl h
  · refine .inr ⟨t, hstep, h.trans (requests_bind resolve (fun candidates => ?_) t)⟩
    refine (silent_result _).bind fun kept => (silent_writeLine _).bind fun _ => ?_
    exact (silent_printStep _ _ _).bind fun _ _ => rfl

end

/-- Whoever answers and takes the progress: verification comes to an end without a panic.  A
payload is returned exactly if the artifact is not too large, progress can be written, and the
signature matches one of the keys that were resolved and have the fingerprint, of which the
first counts.  What is asked for depends on the signer alone, or nothing is asked for. -/
theorem verifyArtifact_spec {T : Type} (party : Party Outside Outside.Answer T) (s : T)
    (resolve : Verifying (List (Candidate C S))) (fingerprint : Option S.Fingerprint) :
    (∃ r, ((verifyArtifact K M defaults artifact resolve fingerprint).run party s).1 = some r) ∧
    (∀ v, ((verifyArtifact K M defaults artifact resolve fingerprint).run party s).1 =
        some (.ok v) ↔
      artifact.length ≤ maxDocumentBytes ∧
        ∃ kept, KeysTried party resolve fingerprint s kept ∧
          Matches K defaults artifact kept v) ∧
    (requests ((verifyArtifact K M defaults artifact resolve fingerprint).calls party s) = [] ∨
      ∃ s₁ t, Dialogue.Passes party (printStep 3 5 "Check signature metadata".toList) s () s₁ ∧
        Dialogue.Passes party (printStep 4 5 "Resolve public keys".toList) s₁ () t ∧
        requests ((verifyArtifact K M defaults artifact resolve fingerprint).calls party s) =
          requests (resolve.run.calls party t)) := by
  have hmetadata : MetadataChecked K artifact (checkMetadata K M artifact) := checkMetadata_spec
  have hsilent : requests ((printStep 3 5 "Check signature metadata".toList).run.calls party s) =
      [] := silent_printStep _ _ _ s
  have hstart : ∀ kept, KeysTried party resolve fingerprint s kept → ∃ s₁,
      Dialogue.Passes party (printStep 3 5 "Check signature metadata".toList) s () s₁ := by
    intro kept hkept
    cases hkept with
    | intro hcheck => exact ⟨_, hcheck⟩
  unfold verifyArtifact
  generalize checkMetadata K M artifact = metadata at hmetadata
  rw [Dialogue.run_bind, Dialogue.calls_bind, requests_append, hsilent, List.nil_append]
  unfold Dialogue.Passes at hstart
  rcases hcheck : (printStep 3 5 "Check signature metadata".toList).run.run party s with ⟨r, s₁⟩
  rw [hcheck] at hstart
  cases r with
  | error e =>
    refine ⟨⟨_, rfl⟩, fun v => iff_of_false (fun h => by cases h) ?_, .inl rfl⟩
    rintro ⟨-, kept, hkept, -⟩
    obtain ⟨_, h⟩ := hstart kept hkept
    cases h
  | ok _ =>
  dsimp only
  cases hmetadata with
  | error e h =>
    refine ⟨⟨_, rfl⟩, fun v => iff_of_false (fun h => by cases h) ?_, .inl rfl⟩
    rintro ⟨hsize, kept, -, before, c, after, -, -, hc, -⟩
    obtain ⟨-, content, hcontent, halg⟩ := verdictOf_verified hc
    exact h ⟨hsize, content, hcontent, halg⟩
  | ok hsize hcontent halg =>
    -- the keys are tried on what is left, whatever the artifact says of itself
    have htried : ∀ {kept : List (Candidate C S)}, kept ≠ [] →
        (KeysTried party resolve fingerprint s kept ↔
          ∃ t, (resolveKeys resolve fingerprint).run.run party s₁ = (.ok kept, t)) :=
      fun hne => keysTried_iff_of_check hne hcheck
    have hasked := requests_resolveKeys party resolve fingerprint s₁
    rw [Dialogue.run_bind, Dialogue.calls_bind, requests_append]
    rcases hkeys : (resolveKeys resolve fingerprint).run.run party s₁ with ⟨r, t⟩
    rw [hkeys] at htried
    generalize requests ((resolveKeys resolve fingerprint).run.calls party s₁) = asked at hasked
    have hnetwork : asked ++ [] = [] ∨ ∃ s₁ t,
        Dialogue.Passes party (printStep 3 5 "Check signature metadata".toList) s () s₁ ∧
        Dialogue.Passes party (printStep 4 5 "Resolve public keys".toList) s₁ () t ∧
        asked ++ [] = requests (resolve.run.calls party t) := by
      rw [List.append_nil]
      rcases hasked with h | ⟨t, hstep, h⟩
      · exact .inl h
      · exact .inr ⟨s₁, t, hcheck, hstep, h⟩
    have hne : ∀ {kept : List (Candidate C S)} {v : Verified S},
        Matches K defaults artifact kept v → kept ≠ [] := by
      rintro kept v hmatches rfl
      exact matches_nil hmatches
    cases r with
    | error e =>
      refine ⟨⟨_, rfl⟩, fun v => iff_of_false (fun h => by cases h) ?_, hnetwork⟩
      rintro ⟨-, kept, hkept, hmatches⟩
      obtain ⟨_, h⟩ := (htried (hne hmatches)).mp hkept
      cases h
    | ok kept =>
      refine ⟨Option.ne_none_iff_exists'.mp (verifyCandidates_ne_none hcontent kept),
        fun v => ?_, hnetwork⟩
      · refine (verifyCandidates_eq_iff hcontent).trans ⟨fun h => ?_, fun h => ?_⟩
        · exact ⟨hsize, kept, (htried (hne h)).mpr ⟨t, rfl⟩, h⟩
        · obtain ⟨-, kept', hkept, hmatches⟩ := h
          obtain ⟨_, h⟩ := (htried (hne hmatches)).mp hkept
          cases h
          exact hmatches

end

end GithubKeys
end YamlSigil
