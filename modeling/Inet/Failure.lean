/-
Inet/Failure.lean

Everything that is reported as an error, in one type.

A computation with errors of one kind is also one with errors of any kind, so
attempts to read, to build and to decode can stand in one sequence.
-/
import Inet.Json.Message

namespace Inet

inductive Failure where
  | address (error : AddressError)
  | network (error : NetworkError)
  | octets (error : OctetsError)
  | json (error : Json.DecodeError)

def Failure.message : Failure → String
  | address error => error.message
  | network error => error.message
  | octets error => error.message
  | json error => error.message

namespace Attempt

instance : MonadLift (Attempt AddressError) (Attempt Failure) := ⟨mapError .address⟩

instance : MonadLift (Attempt NetworkError) (Attempt Failure) := ⟨mapError .network⟩

instance : MonadLift (Attempt OctetsError) (Attempt Failure) := ⟨mapError .octets⟩

instance : MonadLift (Attempt Json.DecodeError) (Attempt Failure) := ⟨mapError .json⟩

variable {α : Type}

theorem liftM_address (x : Attempt AddressError α) :
    (liftM x : Attempt Failure α) = x.mapError .address := rfl

theorem liftM_network (x : Attempt NetworkError α) :
    (liftM x : Attempt Failure α) = x.mapError .network := rfl

theorem liftM_octets (x : Attempt OctetsError α) :
    (liftM x : Attempt Failure α) = x.mapError .octets := rfl

theorem liftM_json (x : Attempt Json.DecodeError α) :
    (liftM x : Attempt Failure α) = x.mapError .json := rfl

end Attempt

end Inet
