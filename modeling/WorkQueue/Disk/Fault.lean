/-!
# Faults of the file system
-/

namespace WorkQueue

inductive Fault where
  | missing
  | occupied
  | notADirectory
  | isADirectory
  | other (reason : String)
  deriving DecidableEq, Repr

namespace Fault

def numbered (reason : String) (number : Nat) : String :=
  reason ++ " (os error " ++ toString number ++ ")"

def message : Fault → String
  | missing => numbered "No such file or directory" 2
  | occupied => numbered "File exists" 17
  | notADirectory => numbered "Not a directory" 20
  | isADirectory => numbered "Is a directory" 21
  | other reason => reason

end Fault

end WorkQueue
