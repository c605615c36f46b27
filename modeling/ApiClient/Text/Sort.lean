namespace ApiClient.Text

def insertByKey {α : Type} (key : α → String) (a : α) : List α → List α
  | [] => [a]
  | b :: rest => if key b < key a then b :: insertByKey key a rest else a :: b :: rest

/-- Elements with equal keys keep their order. -/
def sortByKey {α : Type} (key : α → String) : List α → List α
  | [] => []
  | a :: rest => insertByKey key a (sortByKey key rest)

end ApiClient.Text
