/-!
# Faults of input and output

## Main definitions

* `Fault`, `Fault.message`: why a file or a sink failed, and what is said of it
-/

namespace IoWatch

/-- Why an operation on a file or a sink failed. -/
inductive Fault where
  | notFound
  /-- The path goes on behind something that is no directory. -/
  | notDirectory
  | isDirectory
  | nameTooLong
  | zeroByte
  /-- What was read is not UTF-8. -/
  | illFormedText
  /-- A sink took no more bytes. -/
  | shortWrite
  /-- Any other reason, in its own words. -/
  | other (reason : String)
  deriving DecidableEq, Repr

/-- What is said of a fault. -/
def Fault.message : Fault → String
  | notFound => "No such file or directory (os error 2)"
  | notDirectory => "Not a directory (os error 20)"
  | isDirectory => "Is a directory (os error 21)"
  | nameTooLong => "File name too long (os error 36)"
  | zeroByte => "file name contained an unexpected NUL byte"
  | illFormedText => "stream did not contain valid UTF-8"
  | shortWrite => "failed to write whole buffer"
  | other reason => reason

end IoWatch
