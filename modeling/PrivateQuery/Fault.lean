/-!
# Ways a computation ends without an answer

A step can be refused with an error, it can crash, or it can fail to answer within the attempts it
is given. `Attempt ε α` is an answer or one of these three; `Attempt.recover` turns a crash into an
error and leaves the other two alone.
-/
namespace PrivateQuery

/-- Why there is no answer. -/
inductive Fault (ε : Type) where
  /-- The computation was refused, with a reason. -/
  | raised (error : ε)
  /-- The computation broke down and has nothing to report. -/
  | crashed
  /-- No answer came within the attempts allowed. -/
  | stalled
deriving DecidableEq, Repr

/-- An answer, or why there is none. -/
abbrev Attempt (ε α : Type) : Type := Except (Fault ε) α

namespace Fault

def map {ε ε' : Type} (f : ε → ε') : Fault ε → Fault ε'
  | .raised error => .raised (f error)
  | .crashed => .crashed
  | .stalled => .stalled

end Fault

namespace Attempt

variable {ε ε' α : Type}

/-- Refuse with `error`. -/
def raise (error : ε) : Attempt ε α := .error (.raised error)

/-- An answer or an error, with no third way. -/
def ofExcept : Except ε α → Attempt ε α
  | .ok a => .ok a
  | .error error => raise error

/-- Report errors in the words of another layer. -/
def mapError (f : ε → ε') : Attempt ε α → Attempt ε' α
  | .ok a => .ok a
  | .error fault => .error (fault.map f)

/-- Report a crash as `error`. -/
def recover (error : ε) : Attempt ε α → Attempt ε α
  | .error .crashed => raise error
  | outcome => outcome

end Attempt

end PrivateQuery
