/-
Errors of the operating system, and the numbers and fields of its texts.
-/
import YamlSigil.Core.Resource
import YamlSigil.Core.SignatureKeys
import YamlSigil.Format.SemVer

namespace YamlSigil
namespace Tooling

open YamlSigil.Core Format.SemVer

/-- The kinds of `std::io::ErrorKind` that the tooling tells apart. -/
inductive ErrorKind where
  | notFound
  | wouldBlock
  | interrupted
  | brokenPipe
  | writeZero
  | invalidInput
  | invalidData
  | timedOut
  | unsupported
  | other
deriving Repr, DecidableEq

/-- The error numbers that the tooling tells apart. -/
inductive Errno where
  | srch
  | child
  | loop
  | notDir
deriving Repr, DecidableEq

structure IoError where
  kind : ErrorKind
  rawOsError : Option Errno
  message : Text
deriving Repr, DecidableEq

/-- `std::io::Error::new` -/
def IoError.new (kind : ErrorKind) (message : Text) : IoError := ⟨kind, none, message⟩

/-! ## Texts -/

/-- `str::split_whitespace` -/
def splitWhitespace (t : Text) : List Text := (t.splitOnP isWhitespace).filter (· ≠ [])

/-- What stands behind the last `") "`. -/
def behindLastBracket : Text → Option Text
  | [] => none
  | c :: rest => (behindLastBracket rest).or
      (if c = ')' ∧ rest.head? = some ' ' then some rest.tail else none)

/-- `str::parse::<i32>` -/
def parseI32 : Text → Option Int
  | '-' :: magnitude => signed magnitude true
  | '+' :: magnitude => signed magnitude false
  | magnitude => signed magnitude false
where
  signed (magnitude : Text) (negative : Bool) : Option Int :=
    if magnitude.isEmpty || !magnitude.all Char.isDigit then none
    else if negative then
      if valueOf magnitude ≤ 2 ^ 31 then some (-(valueOf magnitude : Int)) else none
    else if valueOf magnitude < 2 ^ 31 then some (valueOf magnitude : Int) else none

theorem parseI32_of_all_isDigit {t : Text} (h : t.all Char.isDigit = true) :
    parseI32 t = parseI32.signed t false := by
  unfold parseI32
  split
  · simp at h
  · simp at h
  · rfl

theorem parseI32_digits {n : Nat} (h : n < 2 ^ 31) : parseI32 (digits n) = some (n : Int) := by
  have hempty : (digits n).isEmpty = false := List.isEmpty_eq_false_iff.mpr (digits_ne_nil n)
  rw [parseI32_of_all_isDigit (all_isDigit_digits n), parseI32.signed, hempty,
    all_isDigit_digits, valueOf_digits, if_neg (by decide), if_neg (by decide), if_pos h]

end Tooling
end YamlSigil
