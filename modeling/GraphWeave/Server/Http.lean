/-!
HTTP requests and responses as values: a request is a method, a path, query parameters, headers in
the order they were added and an optional body; a response is a status, headers and a body.
-/

namespace GraphWeave.Http

/-- The code points of the punctuation that may appear in a header name. -/
def tokenPunctuation : List Nat := [33, 35, 36, 37, 38, 39, 42, 43, 45, 46, 94, 95, 96, 124, 126]

/-- Whether a character may appear in a header name: an ASCII letter or digit, or one of the
token punctuation characters. -/
def isTokenChar (c : Char) : Bool :=
  (c.toNat < 128 && c.isAlphanum) || tokenPunctuation.contains c.toNat

/-- The canonical form of a header name. -/
def canonicalName (name : String) : String :=
  if !name.toList.all isTokenChar then name
  else
    let (cs, _) := name.toList.foldl (fun (acc, upper) c =>
      let c := if upper then c.toUpper else c.toLower
      (acc ++ [c], c == '-')) ([], true)
    String.ofList cs

/-- A request. -/
structure Request where
  method : String := "GET"
  path : String := "/"
  query : List (String × String) := []
  headers : List (String × String) := []
  body : Option String := none
deriving Repr, Inhabited

namespace Request

/-- Every value of a header, in the order added. -/
def headerValues (r : Request) (name : String) : List String :=
  let key := canonicalName name
  (r.headers.filter fun (k, _) => canonicalName k == key).map (·.2)

/-- The first value of a header, empty when there is none. -/
def header (r : Request) (name : String) : String := (r.headerValues name).headD ""

/-- The first value of a query parameter, empty when there is none. -/
def param (r : Request) (name : String) : String :=
  ((r.query.find? (·.1 == name)).map (·.2)).getD ""

end Request

/-- A response. -/
structure Response where
  status : Nat
  headers : List (String × String) := []
  body : String := ""
deriving Repr, Inhabited

namespace Response

/-- Sets a header, replacing its values. -/
def setHeader (r : Response) (name value : String) : Response :=
  let key := canonicalName name
  { r with headers := r.headers.filter (·.1 != key) ++ [(key, value)] }

/-- Adds a value to a header. -/
def addHeader (r : Response) (name value : String) : Response :=
  { r with headers := r.headers ++ [(canonicalName name, value)] }

/-- The values of a header. -/
def headerValues (r : Response) (name : String) : List String :=
  let key := canonicalName name
  (r.headers.filter (·.1 == key)).map (·.2)

end Response

/-- The response for a path nothing is served at. -/
def notFound : Response :=
  { status := 404, headers := [("Content-Type", "text/plain; charset=utf-8")]
    body := "404 page not found\n" }

end GraphWeave.Http
