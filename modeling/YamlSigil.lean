import YamlSigil.Control.Ask
import YamlSigil.Control.Dialogue
import YamlSigil.Control.Suite
import YamlSigil.Control.Crash
import YamlSigil.Control.Fault
import YamlSigil.Control.Loop
import YamlSigil.Format.Utf8
import YamlSigil.Format.Scan
import YamlSigil.Format.Varint
import YamlSigil.Format.Wire
import YamlSigil.Format.Shortest
import YamlSigil.Format.Base64Url
import YamlSigil.Format.Yaml
import YamlSigil.Format.Regex
import YamlSigil.Format.SemVer
import YamlSigil.Format.CommitGraph
import YamlSigil.Core.Basic
import YamlSigil.Core.Resource
import YamlSigil.Core.Payload
import YamlSigil.Core.Decomposition
import YamlSigil.Core.Pb.Message
import YamlSigil.Core.Pb.Encode
import YamlSigil.Core.Pb.Bounded
import YamlSigil.Core.Pb.Outer
import YamlSigil.Core.Pb.OuterGrammar
import YamlSigil.Core.Pb.Checked
import YamlSigil.Core.Pb.ScanFaults
import YamlSigil.Core.Pb.Proto3
import YamlSigil.Core.Pb.Facade
import YamlSigil.Core.Pb.Canonical
import YamlSigil.Core.ProtoOuter
import YamlSigil.Core.OuterRoundTrip
import YamlSigil.Core.Backend
import YamlSigil.Core.Quote
import YamlSigil.Core.SignatureDoc
import YamlSigil.Core.SignatureKeys
import YamlSigil.Core.TierASchema
import YamlSigil.Transcription.Transcriber
import YamlSigil.Transcription.YamlEnvelope
import YamlSigil.Transcription.RoundTrip
import YamlSigil.Transcription.Bounded
import YamlSigil.Verification.Crypto
import YamlSigil.Verification.Verifier
import YamlSigil.Verification.Verdict
import YamlSigil.Verification.Soundness
import YamlSigil.Verification.Staged
import YamlSigil.Verification.Keys
import YamlSigil.Verification.KeyIndependence
import YamlSigil.Verification.Provider
import YamlSigil.Verification.ProviderAgreement
import YamlSigil.Verification.Qualification
import YamlSigil.Verification.QualificationSuite
import YamlSigil.Signing.Crypto
import YamlSigil.Signing.Sign
import YamlSigil.Signing.Emission
import YamlSigil.Signing.SignThenVerify
import YamlSigil.Signing.Independence
import YamlSigil.Signing.Transcode
import YamlSigil.Signing.TranscodeVerdict
import YamlSigil.Signing.TranscodeRoundTrip
import YamlSigil.Signing.TranscodeBounded
import YamlSigil.Signing.CarrierText
import YamlSigil.Signing.Framing
import YamlSigil.Signing.Bounded
import YamlSigil.Signing.VarintCodec
import YamlSigil.Signing.ProviderCrypto
import YamlSigil.Signing.Provider
import YamlSigil.Signing.ProviderProgram
import YamlSigil.Signing.ProviderThenVerify
import YamlSigil.Signing.Limits
import YamlSigil.Signing.NoPanic
import YamlSigil.Wasm.Verify
import YamlSigil.Wasm.SchemaGate
import YamlSigil.Wasm.Compose
import YamlSigil.Wasm.Sign
import YamlSigil.Release.Policy
import YamlSigil.Release.Advancement
import YamlSigil.Release.Forge
import YamlSigil.Release.Progression
import YamlSigil.Release.Finalize
import YamlSigil.Release.Plan
import YamlSigil.Release.Invariant
import YamlSigil.Release.Reconcile
import YamlSigil.Release.CrashSafety
import YamlSigil.Release.Inventory
import YamlSigil.Release.Provenance
import YamlSigil.Release.Workspace
import YamlSigil.Release.Rebind
import YamlSigil.Tooling.Io
import YamlSigil.Tooling.Kernel
import YamlSigil.Tooling.BoundedProcess
import YamlSigil.Tooling.Containment
import YamlSigil.Tooling.SafeFile
import YamlSigil.Tooling.SafeRead
import YamlSigil.GithubKeys.AgentSigner
import YamlSigil.GithubKeys.Discovery
import YamlSigil.GithubKeys.Links
import YamlSigil.GithubKeys.Lookup
import YamlSigil.GithubKeys.VerifyArtifact
