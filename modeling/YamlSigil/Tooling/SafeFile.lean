/-
Reads of release-reachable manifests, as they are on Unix.

A file is opened component by component below a trusted root, and no link is followed.
Between two calls to the system anyone may change the tree, so what is shown does not depend
on how the tree looks at any one moment.
-/
import YamlSigil.Control.Loop
import YamlSigil.Tooling.Io

namespace YamlSigil
namespace Tooling

open YamlSigil.Core Control Format.SemVer

/-! ## Paths -/

def slash : UInt8 := 0x2F

def dot : UInt8 := 0x2E

/-- `std::path::Component`, without the components of absolute paths. -/
inductive Component where
  | curDir
  | parentDir
  | normal (name : Bytes)
deriving Repr, DecidableEq

/-- Empty parts and single dots are passed over. -/
def component (part : Bytes) : Option Component :=
  if part = [] ∨ part = [dot] then none
  else if part = [dot, dot] then some .parentDir
  else some (.normal part)

/-- `Path::components` of a relative path: a dot that leads is kept. -/
def components (path : Bytes) : List Component :=
  (if (path.splitOn slash).head? = some [dot] then [.curDir] else []) ++
    (path.splitOn slash).filterMap component

def invalidInput (message : Text) : IoError := .new .invalidInput message

def normalName : Component → Except IoError Bytes
  | .normal name =>
    match fromUtf8 name with
    | none => .error (invalidInput "safe file path must be valid UTF-8".toList)
    | some text =>
      if ':' ∈ text ∨ '\x00' ∈ text then
        .error (invalidInput
          "safe file path may not contain alternate data streams or NUL".toList)
      else .ok name
  | _ =>
    .error (invalidInput "safe file path may not contain prefixes, roots, or traversal".toList)

/-- The first component that is not a name is the error. -/
def relativeComponents (path : Bytes) : Except IoError (List Bytes) :=
  if path = [] ∨ path.head? = some slash then
    .error (invalidInput "safe file path must be a nonempty relative path".toList)
  else do
    let names ← (components path).mapM normalName
    if names = [] then
      .error (invalidInput "safe file path has no normal components".toList)
    else .ok names

/-! ## System calls -/

/-- What an open descriptor stands for. -/
abbrev Inode := Nat

inductive FileKind where
  | regular
  | directory
  | symlink
  | special
deriving Repr, DecidableEq

/-- An `openat` follows no link, and a read starts behind what has been read. -/
inductive FileCall where
  | openRoot (path : Bytes)
  | openAt (parent : Inode) (name : Bytes) (directory : Bool)
  | fstat (handle : Inode)
  | read (handle : Inode) (offset wanted : Nat)
deriving Repr, DecidableEq

def FileAnswer : FileCall → Type
  | .openRoot _ | .openAt _ _ _ => Except IoError Inode
  | .fstat _ => Except IoError FileKind
  | .read _ _ wanted => Except IoError { chunk : Bytes // chunk.length ≤ wanted }

abbrev Filing (α : Type) := Looping FileCall FileAnswer α

def ask (q : FileCall) : Filing (FileAnswer q) := Looping.call q

/-! ## Opening -/

def requireType (handle : Inode) (directory : Bool) : Filing (Except IoError Unit) := do
  match ← ask (.fstat handle) with
  | .error e => pure (.error e)
  | .ok kind =>
    if (directory && kind ≠ .directory) || (!directory && kind ≠ .regular) then
      pure (.error (.new .invalidData (if directory then
        "safe path component is not a directory".toList
        else "safe final path is not a regular file".toList)))
    else pure (.ok ())

structure TrustedRoot where
  directory : Inode
deriving Repr, DecidableEq

namespace TrustedRoot

/-- `open` -/
def openAt (path : Bytes) : Filing (Except IoError TrustedRoot) := do
  match ← ask (.openRoot path) with
  | .error e => pure (.error e)
  | .ok directory =>
    match ← requireType directory true with
    | .error e => pure (.error e)
    | .ok () => pure (.ok ⟨directory⟩)

end TrustedRoot

end Tooling
end YamlSigil
