import Allegiance.Json.Value

namespace Allegiance.Http

structure Request where
  method : String
  target : String
  headers : List (String × String)
  body : Bytes

namespace Request

/-- Names of headers have no case. -/
def header? (r : Request) (name : String) : Option String :=
  (r.headers.find? (fun h => h.1.toList.map Char.toLower = name.toList)).map Prod.snd

/-- The path of a target, without a query or fragment, and without what stands before it in a target
that names its host. -/
def path (r : Request) : String :=
  let cs := r.target.toList
  let bare := cs.takeWhile (fun c => c ≠ '?' && c ≠ '#')
  if bare.head? = some '/' ∨ bare = ['*'] then String.ofList bare
  else
    match (bare.dropWhile (· ≠ ':')) with
    | ':' :: '/' :: '/' :: rest =>
      let path := rest.dropWhile (· ≠ '/')
      if path.isEmpty then "/" else String.ofList path
    | _ => String.ofList bare

end Request

structure Response where
  status : Nat
  headers : List (String × String)
  body : Bytes

namespace Response

def empty (status : Nat) : Response := ⟨status, [], []⟩

def json (status : Nat) (v : Json.Value) : Response :=
  ⟨status, [("content-type", "application/json")], v.compact⟩

def text (status : Nat) (s : String) : Response :=
  ⟨status, [("content-type", "text/plain; charset=utf-8")], Utf8.encode s⟩

def addHeader (r : Response) (name value : String) : Response :=
  { r with headers := r.headers ++ [(name, value)] }

def withoutBody (r : Response) : Response := { r with body := [] }

def header? (r : Response) (name : String) : Option String := r.headers.lookup name

end Response

inductive Failure
  | notFound (what : String)
  | badRequest (why : String)
  | internal (why : String)
  deriving DecidableEq

namespace Failure

def status : Failure → Nat
  | notFound _ => 404
  | badRequest _ => 400
  | internal _ => 500

def code : Failure → String
  | notFound _ => "NOT_FOUND"
  | badRequest _ => "BAD_REQUEST"
  | internal _ => "INTERNAL_ERROR"

def message : Failure → String
  | notFound what => "Not found: " ++ what
  | badRequest why => "Bad request: " ++ why
  | internal why => "Internal error: " ++ why

def response (f : Failure) : Response :=
  .json f.status
    (.object [("error", .object [("code", .text f.code), ("message", .text f.message)])])

end Failure

end Allegiance.Http
