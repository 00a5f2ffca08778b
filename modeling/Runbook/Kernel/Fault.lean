import Runbook.Text.Basic

/-!
Why the system refuses a request, and how the refusal is worded.
-/
namespace Runbook.Kernel

inductive Fault where
  | notPermitted
  | notFound
  | noProcess
  | badFormat
  | badDescriptor
  | noChild
  | denied
  | alreadyExists
  | notDirectory
  | isDirectory
  | invalid
  | brokenPipe
  | isPipe
  | nameTooLong
  | notEmpty
  | tooManyLinks
  | noSpace
  | noDevice
deriving DecidableEq

def Fault.message : Fault → Text
  | notPermitted => "Operation not permitted"
  | notFound => "No such file or directory"
  | noProcess => "No such process"
  | badFormat => "Exec format error"
  | badDescriptor => "Bad file descriptor"
  | noChild => "No child processes"
  | denied => "Permission denied"
  | alreadyExists => "File exists"
  | notDirectory => "Not a directory"
  | isDirectory => "Is a directory"
  | invalid => "Invalid argument"
  | brokenPipe => "Broken pipe"
  | isPipe => "Illegal seek"
  | nameTooLong => "File name too long"
  | notEmpty => "Directory not empty"
  | tooManyLinks => "Too many levels of symbolic links"
  | noSpace => "No space left on device"
  | noDevice => "No such device or address"

end Runbook.Kernel
