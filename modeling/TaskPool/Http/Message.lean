import TaskPool.Json.Text

/-!
# Requests and responses

* `HttpMethod`     the methods that some route answers, and `other` for the rest
* `HttpRequest`    method, target, headers and body; the names of headers are in any case, and the
                   body is a text, so what is not UTF-8 is left out
* `HttpResponse`   status, type and text

A response is JSON, except for a stream of events, whose text comes in chunks.
-/

namespace TaskPool

inductive HttpMethod where
  | get
  | post
  | put
  | delete
  | other
  deriving DecidableEq

def HttpMethod.ofName (s : String) : HttpMethod :=
  if s = "GET" then get
  else if s = "POST" then post
  else if s = "PUT" then put
  else if s = "DELETE" then delete
  else other

structure HttpRequest where
  method : HttpMethod
  target : String
  headers : List (String × String)
  body : String

structure HttpResponse where
  status : Nat
  contentType : String
  body : String

/-- the values of a header, whose name is given in lower case -/
def HttpRequest.values (r : HttpRequest) (name : String) : List String :=
  (r.headers.filter fun h => h.1.toLower == name).map Prod.snd

namespace HttpResponse

def json (status : Nat) (j : Json) : HttpResponse := ⟨status, "application/json", j.text⟩

def failure (status : Nat) (message : String) : HttpResponse :=
  json status (.object [("error", .string message)])

/-- the start of a stream of events -/
def events : HttpResponse := ⟨200, "text/event-stream", ""⟩

end HttpResponse

/-- one event of a stream -/
def eventText (name : String) (data : Json) : String :=
  "event:" ++ name ++ "\ndata:" ++ data.text ++ "\n\n"

end TaskPool
