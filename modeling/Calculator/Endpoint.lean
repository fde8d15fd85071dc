import Calculator.Reply

/-! The evaluation endpoint over HTTP: one path, every method routed to it, a bound on the bodies that
are read, and one event for the log per request that is handled. -/
namespace Calculator

namespace Endpoint

def path : String := "/api/parse"

structure Request where
  method : String
  target : String
  body : ByteArray

def isSchemeChar (c : Char) : Bool := c.isAlphanum || c = '+' || c = '-' || c = '.'

/-- A target may be given with scheme and authority in front of its path. -/
def dropAuthority (target : List Char) : List Char :=
  match target.dropWhile isSchemeChar with
  | ':' :: '/' :: '/' :: cs => cs.dropWhile fun c => c ≠ '/' && c ≠ '?' && c ≠ '#'
  | _ => target

/-- The path of a target ends where its query or its fragment begins. -/
def Request.path (r : Request) : String :=
  String.ofList ((dropAuthority r.target.toList).takeWhile fun c => c ≠ '?' && c ≠ '#')

structure Response where
  status : Nat
  contentType? : Option String
  body : String
deriving DecidableEq

inductive Event where
  | evaluated (expression : String) (result : Float)
  | failed (expression : String) (error : String)
  | rejected (method : String) (status : Status) (error : String)

def eventOf (method : String) (reply : Reply) : Event :=
  match reply.body with
  | .success expression result _ => .evaluated expression result
  | .failure expression error => .failed expression error
  | .rejected error => .rejected method reply.status error

def notFound : Response := ⟨404, none, ""⟩

/-- What is sent of a text: everything, except in an answer to `HEAD`. -/
def sentText (method text : String) : String := if method = "HEAD" then "" else text

def responseOf (method : String) (reply : Reply) : Response where
  status := reply.status.code
  contentType? := some "application/json"
  body := sentText method reply.body.toJson.compact

/-- The size in bytes up to which a body is read. -/
def maxBodySize : Nat := 2097152

/-- The answer to a body that is not read to its end. -/
def tooLarge (method : String) : Response where
  status := 413
  contentType? := some "text/plain; charset=utf-8"
  body := sentText method "Failed to buffer the request body: length limit exceeded"

/-- The body is read before the method is looked at, so its size comes first. -/
def answer (limit : UInt64) (r : Request) : Response × List Event :=
  if r.path ≠ path then (notFound, [])
  else if maxBodySize < r.body.size then (tooLarge r.method, [])
  else
    let reply := Reply.handle r.method r.body limit
    (responseOf r.method reply, [eventOf r.method reply])

theorem answer_of_path_ne {limit : UInt64} {r : Request} (h : r.path ≠ path) :
    answer limit r = (notFound, []) := by
  rw [answer, if_pos h]

theorem answer_of_size_gt {limit : UInt64} {r : Request} (hpath : r.path = path)
    (hsize : maxBodySize < r.body.size) : answer limit r = (tooLarge r.method, []) := by
  rw [answer, if_neg (not_not_intro hpath), if_pos hsize]

theorem answer_of_size_le {limit : UInt64} {r : Request} {reply : Reply} (hpath : r.path = path)
    (hsize : r.body.size ≤ maxBodySize) (hreply : Reply.handle r.method r.body limit = reply) :
    answer limit r = (responseOf r.method reply, [eventOf r.method reply]) := by
  rw [answer, if_neg (not_not_intro hpath), if_neg (Nat.not_lt.mpr hsize), hreply]

end Endpoint
end Calculator
