import CkbDiscovery.Effect.Program
import CkbDiscovery.Redis.Command

/-! The client side of a connection: typed commands, the conversion of replies
and the two ways callers treat an error. -/

namespace CkbDiscovery.Redis

open Effect

/-- A program that may send commands to a server. -/
class Client {Call : Type} (Reply : Call → Type) where
  send : (command : Command) → Program Reply (Except RedisError command.Reply)

namespace Client

variable {Call : Type} {Reply : Call → Type} [Client Reply] {α : Type}

/-- `get::<_, String>`: nil does not convert. -/
def getString (key : String) : Program Reply (Except RedisError String) := do
  match ← send (.get key) with
  | .ok (some content) => pure (.ok content)
  | .ok none => pure (.error .typeConversion)
  | .error error => pure (.error error)

def set (key value : String) : Program Reply (Except RedisError Unit) := send (.set key value)

def setEx (key value : String) (seconds : Nat) : Program Reply (Except RedisError Unit) :=
  send (.setEx key value seconds)

def expire (key : String) (seconds : Nat) : Program Reply (Except RedisError Nat) :=
  send (.expire key seconds)

def del (key : String) : Program Reply (Except RedisError Nat) := send (.del key)

def sadd (key member : String) : Program Reply (Except RedisError Nat) := send (.sadd key member)

def scard (key : String) : Program Reply (Except RedisError Nat) := send (.scard key)

def smembers (key : String) : Program Reply (Except RedisError (List String)) :=
  send (.smembers key)

def keys (pattern : String) : Program Reply (Except RedisError (List String)) :=
  send (.keys pattern)

end Client

variable {Call : Type} {Reply : Call → Type} {α ε : Type}

/-- The `?` operator in a function whose error ends the program. -/
def orReturn (program : Program Reply (Except ε α)) : Program Reply α := do
  match ← program with
  | .ok value => pure value
  | .error _ => .stop

def unwrapOr (default : α) (program : Program Reply (Except ε α)) : Program Reply α := do
  match ← program with
  | .ok value => pure value
  | .error _ => pure default

end CkbDiscovery.Redis
