/-
CalcJournal.Http.Request — requests, and the route that each takes.

A request has a method, which is a name, a target, a content type if it names one, and
a body. Only the path of the target says which route it takes: the path is matched
segment by segment as it is written, before any percent signs are read.
-/
import CalcJournal.Calculation
import CalcJournal.Http.MediaType
import CalcJournal.Http.Target
import CalcJournal.Text.Percent
import CalcJournal.Text.Utf8

namespace CalcJournal.Http

/-! ## Requests -/

/-- A request. -/
structure Request where
  method : String
  target : String
  contentType : Option String
  body : List UInt8

/-- Why something is no request. -/
inductive RequestFault where
  | invalidTarget
  | invalidMethod
  deriving DecidableEq, Repr

/-- What is wrong with a request, if anything; the target is looked at first. -/
def Request.fault? (r : Request) : Option RequestFault :=
  if !Target.isTarget r.target then some .invalidTarget
  else if !isName r.method.toList then some .invalidMethod
  else none

/-! ## Routes -/

/-- The resources that there are; a parameter is a segment as it is written. -/
inductive Route where
  | health
  | calculations
  | history
  | search (predicate : List Char)
  | calculation (id : List Char)
  deriving DecidableEq, Repr

/-- The route that a path takes. Parameters are not empty, and the history comes before
the calculation of that name. -/
def Route.ofPath? (path : List Char) : Option Route :=
  match Target.segments path with
  | [[], a] =>
    if a = "health".toList then some .health
    else if a = "calculations".toList then some .calculations
    else none
  | [[], a, b] =>
    if a ≠ "calculations".toList ∨ b = [] then none
    else if b = "history".toList then some .history
    else some (.calculation b)
  | [[], a, b, c] =>
    if a = "calculations".toList ∧ b = "search".toList ∧ c ≠ [] then some (.search c) else none
  | _ => none

/-- What a request asks for; parameters are segments as they are written. -/
inductive Endpoint where
  | health
  | history
  | search (predicate : List Char)
  | get (id : List Char)
  | create
  | update (id : List Char)
  | delete (id : List Char)
  deriving DecidableEq, Repr

namespace Route

/-- The methods of a route. -/
def methods : Route → List String
  | .health | .history | .search _ => ["GET", "HEAD"]
  | .calculations => ["POST"]
  | .calculation _ => ["GET", "HEAD", "PUT", "DELETE"]

/-- What a method asks of a route; upper and lower case differ. -/
def endpoint? (r : Route) (method : String) : Option Endpoint :=
  let reads := method == "GET" || method == "HEAD"
  match r with
  | .health => if reads then some .health else none
  | .history => if reads then some .history else none
  | .search predicate => if reads then some (.search predicate) else none
  | .calculations => if method == "POST" then some .create else none
  | .calculation id =>
    if reads then some (.get id)
    else if method == "PUT" then some (.update id)
    else if method == "DELETE" then some (.delete id)
    else none

end Route

/-! ## Parameters -/

/-- The text that a segment stands for, if it is one. -/
def parameter? (segment : List Char) : Option (List Char) :=
  Utf8.decode? (Percent.decode (Utf8.encode segment))

end CalcJournal.Http
