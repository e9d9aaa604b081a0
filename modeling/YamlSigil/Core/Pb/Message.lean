/-
The protobuf messages, and the protobuf library as a parameter.

The message types are the stable facade: owned values with the unknown fields a
decoder retained.  The generated messages, their decoders and the size ceiling
belong to a library outside the repository.  `Buffa` holds them as data; what
the development assumes about them is stated where it is used.
-/
import YamlSigil.Core.Basic

namespace YamlSigil
namespace Core
namespace Pb

/-! ## Messages -/

/-- The unknown fields a decoder retained, each as the octets it writes back. -/
structure UnknownFields where
  fields : List Bytes := []
deriving Repr, DecidableEq

def UnknownFields.isEmpty (u : UnknownFields) : Bool := u.fields.isEmpty

structure YamlSigilSignature where
  algorithmWireValue : Int32 := 0
  keyid : Option Text := none
  signature : Bytes := []
  unknownFields : UnknownFields := {}
deriving Repr, DecidableEq

namespace YamlSigilSignature

/-- A signature message with a recognized algorithm. -/
def new (algorithm : AlgorithmId) (signature : Bytes) : YamlSigilSignature where
  algorithmWireValue := algorithm.wireValue
  signature := signature

def setKeyid (m : YamlSigilSignature) (keyid : Option Text) : YamlSigilSignature :=
  { m with keyid := keyid }

def hasUnknownFields (m : YamlSigilSignature) : Bool := !m.unknownFields.isEmpty

end YamlSigilSignature

structure SignedYamlArtifact where
  payload : Bytes := []
  signature : Option YamlSigilSignature := none
  unknownFields : UnknownFields := {}
deriving Repr, DecidableEq

/-- Unknown fields of the artifact or of its nested signature. -/
def SignedYamlArtifact.hasUnknownFields (m : SignedYamlArtifact) : Bool :=
  !m.unknownFields.isEmpty || m.signature.any YamlSigilSignature.hasUnknownFields

/-! ## Errors -/

/-- The decoder's error kinds, as far as the facade tells them apart. -/
inductive BuffaError where
  | unexpectedEof
  | varintTooLong
  | invalidWireType
  | invalidFieldNumber
  | messageTooLarge
  | wireTypeMismatch
  | invalidUtf8
  | recursionLimitExceeded
  | invalidEndGroup
  | unknownFieldLimitExceeded
  | elementMemoryLimitExceeded
  | unclassified
deriving Repr, DecidableEq

inductive DecodeErrorKind where
  | unexpectedEnd
  | invalidVarint
  | invalidFieldNumber
  | invalidWireType
  | unexpectedWireType
  | invalidUtf8
  | messageTooLarge
  | recursionLimitExceeded
  | unknownFieldLimitExceeded
  | elementMemoryLimitExceeded
  | invalidGroup
  | other
deriving Repr, DecidableEq

namespace DecodeErrorKind

def description : DecodeErrorKind → Text
  | .unexpectedEnd => "unexpected end of input".toList
  | .invalidVarint => "invalid varint".toList
  | .invalidFieldNumber => "invalid field number".toList
  | .invalidWireType => "invalid wire type".toList
  | .unexpectedWireType => "unexpected wire type for field".toList
  | .invalidUtf8 => "invalid UTF-8 string field".toList
  | .messageTooLarge => "message exceeds the protobuf size ceiling".toList
  | .recursionLimitExceeded => "decoder recursion safeguard exceeded".toList
  | .unknownFieldLimitExceeded => "decoder unknown-field safeguard exceeded".toList
  | .elementMemoryLimitExceeded => "decoder element-memory safeguard exceeded".toList
  | .invalidGroup => "invalid protobuf group".toList
  | .other => "other protobuf decode failure".toList

def fromBuffa : BuffaError → DecodeErrorKind
  | .unexpectedEof => .unexpectedEnd
  | .varintTooLong => .invalidVarint
  | .invalidWireType => .invalidWireType
  | .invalidFieldNumber => .invalidFieldNumber
  | .messageTooLarge => .messageTooLarge
  | .wireTypeMismatch => .unexpectedWireType
  | .invalidUtf8 => .invalidUtf8
  | .recursionLimitExceeded => .recursionLimitExceeded
  | .invalidEndGroup => .invalidGroup
  | .unknownFieldLimitExceeded => .unknownFieldLimitExceeded
  | .elementMemoryLimitExceeded => .elementMemoryLimitExceeded
  | .unclassified => .other

/-- The `Display` text of a decoding error of this kind. -/
def toText (k : DecodeErrorKind) : Text := "protobuf decode failed: ".toList ++ k.description

end DecodeErrorKind

inductive EncodeErrorKind where
  | messageTooLarge
  | other
deriving Repr, DecidableEq

namespace EncodeErrorKind

def description : EncodeErrorKind → Text
  | .messageTooLarge => "message exceeds the protobuf size ceiling".toList
  | .other => "other protobuf encode failure".toList

def toText (k : EncodeErrorKind) : Text := "protobuf encode failed: ".toList ++ k.description

end EncodeErrorKind

/-! ## The library -/

/-- The generated signature message.  The enum is open, so `alg` is any number. -/
structure GeneratedYamlSigilSignature where
  alg : Int32 := 0
  keyid : Option Text := none
  signature : Bytes := []
  unknownFields : UnknownFields := {}
deriving Repr, DecidableEq

structure GeneratedSignedYamlArtifact where
  payload : Bytes := []
  signature : Option GeneratedYamlSigilSignature := none
  unknownFields : UnknownFields := {}
deriving Repr, DecidableEq

def YamlSigilSignature.fromGenerated (g : GeneratedYamlSigilSignature) : YamlSigilSignature where
  algorithmWireValue := g.alg
  keyid := g.keyid
  signature := g.signature
  unknownFields := g.unknownFields

def SignedYamlArtifact.fromGenerated (g : GeneratedSignedYamlArtifact) : SignedYamlArtifact where
  payload := g.payload
  signature := g.signature.map YamlSigilSignature.fromGenerated
  unknownFields := g.unknownFields

/-- The size ceiling and the decoders generated from the schema. -/
structure Buffa where
  maxMessageBytes : UInt32
  decodeArtifact : Bytes → Except BuffaError GeneratedSignedYamlArtifact
  decodeSignature : Bytes → Except BuffaError GeneratedYamlSigilSignature

def SignedYamlArtifact.decode (B : Buffa) (input : Bytes) :
    Except DecodeErrorKind SignedYamlArtifact :=
  match B.decodeArtifact input with
  | .ok g => .ok (fromGenerated g)
  | .error e => .error (DecodeErrorKind.fromBuffa e)

def YamlSigilSignature.decode (B : Buffa) (input : Bytes) :
    Except DecodeErrorKind YamlSigilSignature :=
  match B.decodeSignature input with
  | .ok g => .ok (fromGenerated g)
  | .error e => .error (DecodeErrorKind.fromBuffa e)

end Pb
end Core
end YamlSigil
