/-!
# Failures

Most faults are part of an answer: they are reported, and the work goes on.  A failure is a fault
that nobody answers for; it ends the operation in which it arises.
-/

namespace DeclOrder

/-- Why an operation ends without an answer: a file is no text, a path has a null character, a path
is too long to be asked about, a number of a configuration file has too many digits, its values are
nested too deeply, a URI is malformed, or ranks are missing for some of the hooks only. -/
inductive Failure where
  | notText
  | nullInPath
  | pathTooLong
  | hugeInteger
  | deepNesting
  | malformedUri
  | mixedRanks
  deriving DecidableEq, Repr

end DeclOrder
