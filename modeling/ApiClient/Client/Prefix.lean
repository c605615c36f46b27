import ApiClient.Config.Basic
import ApiClient.Overrides
import ApiClient.Text.Pieces
import ApiClient.Typing.Expression

namespace ApiClient

def betweenQuotes? (quote : Char) : List Char → Option (List Char)
  | [] => none
  | c :: rest => if c = quote ∧ rest.getLast? = some quote then some rest.dropLast else none

def unquote? (s : String) : Option String :=
  (['\'', '"', '\x60'].findSome? fun quote => betweenQuotes? quote s.toList).map String.ofList

def prependLiteral (literal path : String) : String :=
  if Text.startsWith literal path || Text.startsWith ("/" ++ literal) path then path
  else literal ++ path

/-- The prefixed path, and whether a prefix is configured at all. -/
def applyPrefix (c : Config) (o : Overrides) (context : PrefixContext) : String × Bool :=
  match nonBlank (o.apiPrefix context) with
  | some answer =>
    let expression := Text.trimText answer
    match unquote? expression with
    | some literal => (prependLiteral literal context.path, true)
    | none => ("$\x7b" ++ expression ++ "\x7d" ++ context.path, true)
  | none =>
    match c.literalApiPrefix? with
    | some literal => (prependLiteral ((unquote? literal).getD literal) context.path, true)
    | none => (context.path, false)

end ApiClient
