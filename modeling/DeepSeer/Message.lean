import DeepSeer.HeaderMap

/-!
The HTTP messages that pass between the codec and the session.
-/
namespace DeepSeer

open ByteMemory ByteText

inductive HttpMethod where
  | GET | POST | PUT | DELETE | PATCH | HEAD | OPTIONS | CONNECT | TRACE | UNKNOWN
  deriving DecidableEq, Repr

def methodToString : HttpMethod → Bytes
  | .GET => text "GET"
  | .POST => text "POST"
  | .PUT => text "PUT"
  | .DELETE => text "DELETE"
  | .PATCH => text "PATCH"
  | .HEAD => text "HEAD"
  | .OPTIONS => text "OPTIONS"
  | .CONNECT => text "CONNECT"
  | .TRACE => text "TRACE"
  | .UNKNOWN => text "UNKNOWN"

def stringToMethod (s : Bytes) : HttpMethod :=
  if s = text "GET" then .GET
  else if s = text "POST" then .POST
  else if s = text "PUT" then .PUT
  else if s = text "DELETE" then .DELETE
  else if s = text "PATCH" then .PATCH
  else if s = text "HEAD" then .HEAD
  else if s = text "OPTIONS" then .OPTIONS
  else if s = text "CONNECT" then .CONNECT
  else if s = text "TRACE" then .TRACE
  else if s = text "UNKNOWN" then .UNKNOWN
  else .UNKNOWN

/-- Ports, versions and status codes are numbers below the size of their C++
type; only the casts of a port are narrowing. -/
structure HttpRequest where
  method : HttpMethod := .UNKNOWN
  url : Bytes := []
  host : Bytes := []
  port : Nat := 80
  versionMajor : Nat := 1
  versionMinor : Nat := 1
  headers : HeaderMap := {}
  hasBody : Bool := false
  deriving DecidableEq

structure HttpResponse where
  statusCode : Nat := 0
  reason : Bytes := []
  versionMajor : Nat := 1
  versionMinor : Nat := 1
  headers : HeaderMap := {}
  hasBody : Bool := false
  deriving DecidableEq

@[simp] theorem stringToMethod_methodToString (m : HttpMethod) :
    stringToMethod (methodToString m) = m := by
  cases m <;> decide

/-- The name of a method has no blank and no line end. -/
theorem methodToString_plain (m : HttpMethod) :
    32 ∉ methodToString m ∧ 13 ∉ methodToString m := by
  cases m <;> decide

/-- The methods whose name the enumeration keeps. -/
def KnownMethod (name : Bytes) : Prop := ∃ m, methodToString m = name

/-- A method token survives the way through the enumeration exactly when it is
the name of a member. -/
theorem methodToString_stringToMethod {name : Bytes} :
    methodToString (stringToMethod name) = name ↔ KnownMethod name := by
  constructor
  · exact fun h => ⟨_, h⟩
  · rintro ⟨m, rfl⟩
    rw [stringToMethod_methodToString]

end DeepSeer
