namespace ApiClient

inductive HttpMethod where
  | get
  | put
  | post
  | delete
  | patch
deriving DecidableEq, Repr

namespace HttpMethod

/-- Every method, in the order in which the operations of a path are visited. -/
def all : List HttpMethod :=
  [get, put, post, delete, patch]

def text : HttpMethod → String
  | get => "get"
  | put => "put"
  | post => "post"
  | delete => "delete"
  | patch => "patch"

def upperText : HttpMethod → String
  | get => "GET"
  | put => "PUT"
  | post => "POST"
  | delete => "DELETE"
  | patch => "PATCH"

def ofText? (s : String) : Option HttpMethod :=
  all.find? (·.text == s)

end HttpMethod

end ApiClient
