/-
# Failures

What ends a run without a result is an error of the library or one of six
failures outside its taxonomy: a text that has no octets, octets that are no
text, an integer with too many digits to be read, one with too many to be
written, a path that holds a null character, and a request about a file that is
refused where the library has no error for it.
They are no fault of a document's structure, so they carry no kind and no place.

Source: `idlforge.core.errors`, and what escapes from `idlforge.core.loader`
(`load_schema`, `load_schema_file`) and `idlforge.codegen.python` (`emit`)
beside it.
-/

import AnchorIdl.Document.Fault
import AnchorIdl.Files.Access

namespace AnchorIdl

/-- What ends a run without a result. -/
inductive Failure
  | error (e : IdlError)
  | unencodable (fault : Utf8.EncodeFault)
  | undecodable (fault : DecodeFault)
  | longInteger (digits : Nat)
  | overlong
  | nullInPath
  | refused (answer : OsFault)
  deriving DecidableEq, Repr

/-- The wording of an encoding failure. -/
def Utf8.EncodeFault.message (f : Utf8.EncodeFault) : Text :=
  let what : Text :=
    match f.run with
    | [c] => "character '" ++ Utf8.escapeSurrogate c ++ "' in position " ++ Text.ofNat f.start
    | run =>
      "characters in position " ++ Text.ofNat f.start ++ "-" ++
        Text.ofNat (f.start + run.length - 1)
  "'utf-8' codec can't encode " ++ what ++ ": surrogates not allowed"

/-- The wording of the failure of an integer with too many digits; their number is told where the
integer is read and not where it is written. -/
def longIntegerMessage (digits : Option Nat) : Text :=
  let found : Text := match digits with
    | none => []
    | some n => ": value has " ++ Text.ofNat n ++ " digits"
  "Exceeds the limit (" ++ Text.ofNat Text.maxDigits ++
    " digits) for integer string conversion" ++ found ++
    "; use sys.set_int_max_str_digits() to increase the limit"

/-- The message of a failure, with the context of an error. -/
def Failure.message : Failure → Text
  | error e => e.display
  | unencodable fault => fault.message
  | undecodable fault => fault.message
  | longInteger digits => longIntegerMessage (some digits)
  | overlong => longIntegerMessage none
  | nullInPath => "embedded null byte"
  | refused answer => answer.display

/-- The failure of a request about a file; `raise` is the error for a refusal. -/
def FileFault.toFailure (raise : OsFault → IdlError) : FileFault → Failure
  | .refused answer => .error (raise answer)
  | .path (.unencodable fault) => .unencodable fault
  | .path .holdsNull => .nullInPath

/-- The failure that the rejection of a document from `file` is. -/
def Document.Rejection.toFailure (file : Option Path) : Document.Rejection → Failure
  | .fault f => (f.toError? file).elim .overlong .error
  | .unencodable f => .unencodable f
  | .longInteger digits => .longInteger digits
  | .overlong => .overlong

end AnchorIdl
