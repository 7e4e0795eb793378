import Mathlib.Logic.Basic

/-!
# gRPC status errors

The errors that the two services exchange. `status.FromError` tells a status
error from any other one.
-/

namespace SoaHomework.Grpc

/-- The status codes of gRPC other than `OK`. -/
inductive Code where
  | canceled
  | unknown
  | invalidArgument
  | deadlineExceeded
  | notFound
  | alreadyExists
  | permissionDenied
  | resourceExhausted
  | failedPrecondition
  | aborted
  | outOfRange
  | unimplemented
  | internal
  | unavailable
  | dataLoss
  | unauthenticated
deriving DecidableEq, Repr

/-- A `status.Error`. -/
structure RpcError where
  code : Code
  message : String
deriving DecidableEq, Repr

/-- An error as the caller of a client method sees it. -/
inductive CallError where
  | status (error : RpcError)
  | other
deriving DecidableEq, Repr

/-- `st.Code() == codes.Unavailable || st.Code() == codes.DeadlineExceeded`. -/
def Code.isTransient (code : Code) : Bool := code == .unavailable || code == .deadlineExceeded

/-- The codes that the gRPC library generates by itself. The other ones come
    from the application only. -/
def Code.isOfLibrary : Code → Bool
  | .invalidArgument | .notFound | .alreadyExists | .failedPrecondition | .aborted
  | .outOfRange | .dataLoss => false
  | _ => true

def CallError.isOfLibrary : CallError → Bool
  | .status error => error.code.isOfLibrary
  | .other => true

/-- The error of a call that was not answered by the application. -/
abbrev TransportError := { err : CallError // err.isOfLibrary = true }

end SoaHomework.Grpc
