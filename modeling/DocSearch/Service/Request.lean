import DocSearch.Outcome
import DocSearch.Service.Call

/-!
# Requests

A request is one call and the way its reply is read. An operation that needs the service once is a
request, or an error when it fails before anything is sent; so it makes at most one call. Running a
request against a service records the call whether or not it is answered.
-/

namespace DocSearch

/-- What comes back for a call: an answer or a fault. -/
abbrev Reply := Except Fault Value

/-- A search service with a state of its own. -/
structure Service (σ : Type) where
  reply : Call → σ → Reply × σ

structure Request (α : Type) where
  call : Call
  read : Reply → Except Error α

variable {σ α β : Type}

/-- The answer of a reply; a fault is passed on as it is. -/
def Reply.answer : Reply → Except Error Value
  | .ok v => .ok v
  | .error f => .error (.fault f)

/-- A service can be reached if it answers a ping with a value that counts as true. -/
def Reply.reachable : Reply → Bool
  | .ok v => v.truthy
  | .error _ => false

/-- Go on with what a request yields, without a further call. -/
def Request.andThen (request : Request α) (next : α → Except Error β) : Request β where
  call := request.call
  read reply := request.read reply >>= next

def Service.run (service : Service σ) (state : σ) :
    Except Error (Request α) → Outcome Call σ α
  | .error e => ⟨.error e, [], state⟩
  | .ok request =>
    let (reply, state) := service.reply request.call state
    ⟨request.read reply, [request.call], state⟩

/-- A service that gives the replies of a list one after the other and, once they are used up,
replies to each call by `idle`. -/
def Service.scripted (idle : Call → Reply) : Service (List Reply) where
  reply call
    | [] => (idle call, [])
    | reply :: rest => (reply, rest)

end DocSearch
