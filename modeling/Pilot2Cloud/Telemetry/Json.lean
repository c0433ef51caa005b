/-!
# The JSON library

The library that parses the messages is not part of the program.  Its values and
the functions that are called on them are parameters; a function that cannot do
what it should throws an exception.
-/

namespace Pilot2Cloud
namespace Telemetry

/-- The exceptions of the library. -/
inductive JsonError
  | runtimeError
  | logicError
  deriving DecidableEq, Repr

/-- The functions of `Json::CharReader` and `Json::Value` that are called.  The
numbers that `asDouble` returns are of type `D`. -/
structure JsonCpp (Value D : Type) where
  /-- What `parse` returns, the value that it stores and the errors.  It throws
  an exception if values are nested too deep. -/
  parse : String → Except JsonError (Bool × Value × String)
  isMember : Value → String → Except JsonError Bool
  /-- `value[name]`, which is null if there is no such member. -/
  get : Value → String → Except JsonError Value
  isObject : Value → Bool
  isArray : Value → Bool
  /-- `value[0]` up to `value[value.size() - 1]`. -/
  elements : Value → List Value
  asDouble : Value → Except JsonError D
  asInt : Value → Except JsonError Int
  asString : Value → Except JsonError String

/-- The library, and the conversion of a number to single precision, of which
the numbers are of type `F`. -/
structure Library (Value D F : Type) extends JsonCpp Value D where
  toFloat : D → F

end Telemetry
end Pilot2Cloud
