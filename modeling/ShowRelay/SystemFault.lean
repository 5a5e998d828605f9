/-
  ShowRelay.SystemFault

  The refusals that the operating system can give to a request of the relay,
  with the words and the number under which it reports each of them.
-/

namespace ShowRelay

/-- Why the operating system refused a request. -/
inductive SystemFault where
  -- A name on the path stands for nothing.
  | notFound
  | inputOutput
  | permissionDenied
  | alreadyExists
  -- A name on the path stands for something other than a folder.
  | notDirectory
  | isDirectory
  -- An argument makes no sense, such as sending to port 0.
  | invalidArgument
  | noSpace
  -- A file name has more bytes than fit.
  | nameTooLong
  -- Too many symbolic links were followed in turn.
  | tooManyLinks
  | addressInUse
  | networkUnreachable
  | connectionRefused
  | notText
  -- A path holds a zero byte, which would end it.
  | zeroInPath
  deriving Repr, DecidableEq

namespace SystemFault

/-- A refusal in words, with its number where it has one. -/
def message : SystemFault → String
  | notFound => "No such file or directory (os error 2)"
  | inputOutput => "Input/output error (os error 5)"
  | permissionDenied => "Permission denied (os error 13)"
  | alreadyExists => "File exists (os error 17)"
  | notDirectory => "Not a directory (os error 20)"
  | isDirectory => "Is a directory (os error 21)"
  | invalidArgument => "Invalid argument (os error 22)"
  | noSpace => "No space left on device (os error 28)"
  | nameTooLong => "File name too long (os error 36)"
  | tooManyLinks => "Too many levels of symbolic links (os error 40)"
  | addressInUse => "Address already in use (os error 98)"
  | networkUnreachable => "Network is unreachable (os error 101)"
  | connectionRefused => "Connection refused (os error 111)"
  | notText => "stream did not contain valid UTF-8"
  | zeroInPath => "file name contained an unexpected NUL byte"

end SystemFault

end ShowRelay
